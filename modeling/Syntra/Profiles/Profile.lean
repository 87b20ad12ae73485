import Syntra.ByteFormat.Slots
import Syntra.Proto.Codec
import Syntra.Tables.Association

/-!
# Profiles on the wire

A device publishes its name and an image to its peers: a start with the name and the dimensions,
and the pixels in chunks. `Reassembler` gathers them again, one profile for each peer
(`peer_profile.rs`).
-/

namespace Syntra.Profiles

open ByteFormat Proto Tables

def maxDeviceProfileNameBytes : ℕ := 128

def maxPeerAvatarDimension : UInt32 := 128

def maxPartials : ℕ := 8

/-- Five seconds, in nanoseconds. -/
def ttl : ℕ := 5 * 10 ^ 9

/-- The picture of a device. -/
structure PeerAvatar where
  width : UInt32
  height : UInt32
  rgba : Bytes
  deriving DecidableEq, Repr

/-- What a device says of itself. -/
structure DeviceProfile where
  displayName : String
  avatar : Option PeerAvatar
  deriving DecidableEq, Repr

def PeerAvatar.validate (avatar : PeerAvatar) : Except String Unit := do
  if avatar.width = 0 ∨ avatar.height = 0 ∨ maxPeerAvatarDimension < avatar.width ∨
      maxPeerAvatarDimension < avatar.height then
    throw "device profile avatar exceeds 128x128 pixels"
  let expected ← okOr ((checkedMul avatar.width.toNat avatar.height.toNat).bind (checkedMul · 4))
    "device profile avatar dimensions overflow"
  if avatar.rgba.length ≠ expected then
    throw "device profile avatar RGBA length does not match dimensions"

def DeviceProfile.validate (profile : DeviceProfile) : Except String Unit := do
  if (utf8 profile.displayName).length > maxDeviceProfileNameBytes then
    throw "device profile display name exceeds 128 UTF-8 bytes"
  match profile.avatar with
  | some avatar => avatar.validate
  | none => pure ()

/-- The source gives the texts of both. -/
inductive EncodeError
  | invalid (reason : String)
  | wire (error : ProtocolError)

def startEvent (requestId : UInt64) (profile : DeviceProfile) : ProtoEvent :=
  let avatar := profile.avatar.getD ⟨0, 0, []⟩
  .profileStart requestId avatar.width avatar.height (UInt32.ofNat avatar.rgba.length)
    (UInt32.ofNat (divCeil avatar.rgba.length maxProfileChunkSize)) profile.displayName

def chunkEvents (requestId : UInt64) (profile : DeviceProfile) : List ProtoEvent :=
  let avatar := profile.avatar.getD ⟨0, 0, []⟩
  (chunks maxProfileChunkSize avatar.rgba).zipIdx.map fun (data, index) =>
    .profileChunk requestId (UInt32.ofNat index) data

def encodeProfile (requestId : UInt64) (profile : DeviceProfile) :
    Except EncodeError (List ProtoEvent) :=
  match profile.validate with
  | .error reason => .error (.invalid reason)
  | .ok () =>
    match encode (startEvent requestId profile) with
    | .error error => .error (.wire error)
    | .ok _ => .ok (startEvent requestId profile :: chunkEvents requestId profile)

/-- Why a call gives nothing: the text of the error, or a product that does not fit in `u32`. -/
inductive Failure
  | refused (reason : String)
  | overflow
  deriving DecidableEq, Repr

/-- A product of `u32`, `none` where it overflows. -/
def productU32 (left right : UInt32) : Option UInt32 :=
  if left.toNat * right.toNat < UInt32.size then some (left * right) else none

def avatarSize (width height : UInt32) : Option UInt32 :=
  (productU32 width height).bind (productU32 · 4)

/-- A profile as far as its chunks have come in. -/
structure Partial where
  requestId : UInt64
  width : UInt32
  height : UInt32
  chunks : List (Option Bytes)
  name : String
  touched : ℕ
  deriving DecidableEq, Repr

/-- Header fields of a `ProfileStart` message. -/
structure ProfileHeader where
  width : UInt32
  height : UInt32
  totalLen : UInt32
  chunks : UInt32
  displayName : String
  deriving DecidableEq, Repr

/-- The checks of a start, and whether it announces an image. -/
def ProfileHeader.check (requestId : UInt64) (header : ProfileHeader) : Except Failure Bool :=
  if requestId = 0 ∨ (utf8 header.displayName).length > 128 ∨ 128 < header.width ∨
      128 < header.height then
    .error (.refused "invalid profile metadata")
  else if header.totalLen = 0 then
    if header.width ≠ 0 ∨ header.height ≠ 0 ∨ header.chunks ≠ 0 then
      .error (.refused "invalid empty avatar")
    else .ok false
  else if header.width = 0 ∨ header.height = 0 then
    .error (.refused "invalid avatar dimensions or chunk count")
  else
    match avatarSize header.width header.height with
    | none => .error .overflow
    | some size =>
      if size ≠ header.totalLen ∨
          header.chunks.toNat ≠ divCeil header.totalLen.toNat maxProfileChunkSize then
        .error (.refused "invalid avatar dimensions or chunk count")
      else .ok true

/-- The partial profile of each peer, at most one. -/
structure Reassembler where
  peers : Table String Partial

namespace Reassembler

def new : Reassembler := ⟨∅⟩

variable (self : Reassembler)

def expire (now : ℕ) : Reassembler :=
  ⟨self.peers.retain fun _ pending => now - pending.touched < ttl⟩

def removePeer (fingerprint : String) : Reassembler :=
  ⟨self.peers.erase fingerprint⟩

/-- The last part of a start: the profile is known already, refused or begun. -/
def accept (touched : ℕ) (fingerprint : String) (requestId : UInt64) (header : ProfileHeader) :
    Reassembler × Except Failure (Option DeviceProfile) :=
  let begun : Reassembler := ⟨self.peers.insert fingerprint
    { requestId := requestId, width := header.width, height := header.height,
      chunks := List.replicate header.chunks.toNat none, name := header.displayName,
      touched := touched }⟩
  match self.peers.lookup fingerprint with
  | some old =>
    if old.requestId = requestId then
      if old.width = header.width ∧ old.height = header.height ∧
          old.name = header.displayName then
        (self, .ok none)
      else (self, .error (.refused "conflicting profile start"))
    else (begun, .ok none)
  | none =>
    if self.peers.keys.length ≥ maxPartials then
      (self, .error (.refused "too many partial profiles"))
    else (begun, .ok none)

/-- The clock is read twice, first to expire what is old and again where a profile is begun. -/
def start (now touched : ℕ) (fingerprint : String) (requestId : UInt64)
    (header : ProfileHeader) : Reassembler × Except Failure (Option DeviceProfile) :=
  let self := self.expire now
  match header.check requestId with
  | .error failure => (self, .error failure)
  | .ok false => (self.removePeer fingerprint, .ok (some ⟨header.displayName, none⟩))
  | .ok true => self.accept touched fingerprint requestId header

end Reassembler

namespace Partial

variable (pending : Partial)

/-- The slots with one more chunk, `none` when it has come before. -/
def place (requestId : UInt64) (index : UInt32) (data : Bytes) :
    Except Failure (Option (List (Option Bytes))) :=
  if pending.requestId ≠ requestId then
    .error (.refused "profile generation mismatch")
  else
    match avatarSize pending.width pending.height with
    | none => .error .overflow
    | some size =>
      match checkedMul index.toNat maxProfileChunkSize with
      | none => .error (.refused "invalid profile index")
      | some offset =>
        if size.toNat ≤ offset ∨
            data.length ≠ min maxProfileChunkSize (size.toNat - offset) then
          .error (.refused "invalid profile chunk size")
        else
          match pending.chunks[index.toNat]? with
          | none => .error (.refused "invalid profile chunk index")
          | some (some existing) =>
            if existing = data then .ok none
            else .error (.refused "conflicting profile chunk")
          | some none => .ok (some (pending.chunks.set index.toNat (some data)))

def profile : DeviceProfile where
  displayName := pending.name
  avatar := some ⟨pending.width, pending.height, pending.chunks.flatMap (·.getD [])⟩

end Partial

def Reassembler.chunk (self : Reassembler) (now : ℕ) (fingerprint : String) (requestId : UInt64)
    (index : UInt32) (data : Bytes) : Reassembler × Except Failure (Option DeviceProfile) :=
  let self := self.expire now
  match self.peers.lookup fingerprint with
  | none => (self, .error (.refused "unknown profile transfer"))
  | some pending =>
    match pending.place requestId index data with
    | .error failure => (self, .error failure)
    | .ok none => (self, .ok none)
    | .ok (some slots) =>
      let filled := { pending with chunks := slots }
      if slots.any Option.isNone then
        (⟨self.peers.insert fingerprint filled⟩, .ok none)
      else (self.removePeer fingerprint, .ok (some filled.profile))

end Syntra.Profiles
