import Syntra.Files.Versions
import Syntra.Service.PeerLoss

/-!
# File clipboard reads between two devices

A device that offers copied files and a device that pastes them. The one is the service with its
disk, which goes on changing, and with the reads that it has begun; the other is a transfer state.
What they send each other is delivered any number of times, in any order or not at all. Request ids
and the numbers of offers are fresh.
-/

namespace Syntra.Service

open ByteFormat Proto Files Clipboard StateMachine Tables List
open TransferState (entriesById new_sound perform_follows)

/-- A read of `execute_transfer_actions`, with the moment at which it was begun. -/
structure ReadSource (Address : Type) where
  owner : TransferOwner (Peer Address)
  fileId : UInt64
  requestId : UInt64
  offset : UInt64
  length : UInt64
  offer : FileOffer
  since : ℕ

section Reads

variable {Address : Type} (sha256 : Bytes → Digest)

def ReadSource.result (read : ReadSource Address) (opening reading : Io) :
    SourceReadResult Address where
  owner := read.owner
  fileId := read.fileId
  requestId := read.requestId
  offset := read.offset
  length := read.length
  result := do
    let file ← read.offer.openFile opening read.fileId read.offset
    let (chunk, file) ← file.nextChunkBounded reading read.length.toNat
    let data := (chunk.map (·.2)).getD []
    pure (file, chunk, if file.offset = file.size then some (sha256 data) else none)

/-- The read may have this result by now. -/
def ReadSource.Yields (life : DiskLife) (read : ReadSource Address) (now : ℕ)
    (result : SourceReadResult Address) : Prop :=
  ∃ times place opening reading, times.Within read.since now ∧
    (∀ path identity, read.offer.sources.lookup read.fileId = some (path, identity) →
      life.Reads times place path read.offset opening reading) ∧
    result = read.result sha256 opening reading

def readsOf (since : ℕ) (actions : List (TransferAction (Peer Address))) :
    List (ReadSource Address) :=
  actions.filterMap fun action =>
    match action with
    | .readSource owner fileId requestId offset length offer =>
      some ⟨owner, fileId, requestId, offset, length, offer, since⟩
    | _ => none

end Reads

/-- A range that the receiver has asked for, and when. -/
structure Asked where
  wireId : UInt64
  fileId : UInt64
  requestId : UInt64
  offset : UInt64
  length : UInt64
  moment : ℕ
  deriving DecidableEq, Repr

def Asked.key (asked : Asked) : UInt64 × UInt64 × UInt64 :=
  (asked.wireId, asked.fileId, asked.requestId)

def messagesTo {P : Type} [DecidableEq P] (peer : P) (messages : List (P × ProtoEvent)) :
    List ProtoEvent :=
  (messages.filter fun message => message.1 = peer).map (·.2)

def requestsIn (moment : ℕ) (messages : List ProtoEvent) : List Asked :=
  messages.filterMap fun message =>
    match message with
    | .clipboardFileRequest wireId fileId requestId offset length =>
      some ⟨wireId, fileId, requestId, offset, length, moment⟩
    | _ => none

/-- The disk of the device that offers files, and what the devices call each other. -/
structure Link (Address P : Type) where
  life : DiskLife
  startedAt : UInt64
  receiver : Peer Address
  source : P

/-- A device that offers files and one that reads them. -/
structure Network (Address P : Type) where
  now : ℕ
  source : Service Address
  receiver : TransferState P
  asked : List Asked
  sent : List ProtoEvent
  offered : List (UInt64 × FileOffer)
  reads : List (ReadSource Address)

/-- The disk has changed or not, the service takes an event, or the other device makes a call. -/
inductive Step (Address P : Type) where
  | elapse
  | source (around : Surroundings Address) (event : Event Address)
  | receiver (call : Call P)

namespace Network

variable {Address P : Type} [DecidableEq Address] [DecidableEq P]
  (sha256 : Bytes → Digest) (base64 : Bytes → String) (link : Link Address P)
  (network : Network Address P)

/-- What the service sends to the other device while it handles an event. -/
def told (around : Surroundings Address) (event : Event Address) : List ProtoEvent :=
  messagesTo link.receiver (network.source.sentBy sha256 base64 around event)

def offers (around : Surroundings Address) (event : Event Address) : List (UInt64 × FileOffer) :=
  match event with
  | .manifestOffer { offer := .ok copied, .. } =>
    (network.told sha256 base64 link around event).filterMap fun message =>
      match message with
      | .clipboardManifest wireId _ => some (wireId, { copied with transferId := wireId })
      | _ => none
  | _ => []

/-- The reads that an event begins; only a request of a peer does. -/
def begun (around : Surroundings Address) (event : Event Address) : List (ReadSource Address) :=
  match event.operation around network.source with
  | some operation =>
    readsOf network.now ((network.source.call sha256 base64 operation).2.toOption.getD [])
  | none => []

def requests (call : Call P) : List Asked :=
  requestsIn network.now (messagesTo link.source (network.receiver.perform sha256 base64 call).sent)

/-- Messages have been sent before they are taken, reads have been begun before they end, and what
is new has a new name. -/
def Permits : Step Address P → Prop
  | .elapse => True
  | .source around event =>
    (∀ operation, event.operation around network.source = some operation →
      ∀ wireId fileId requestId offset length, operation.message = some (link.receiver,
        .clipboardFileRequest wireId fileId requestId offset length) →
      ∃ moment, ⟨wireId, fileId, requestId, offset, length, moment⟩ ∈ network.asked) ∧
    (∀ result, event = .sourceResult result →
      ∃ read ∈ network.reads, read.Yields sha256 link.life network.now result) ∧
    ∀ number offer other,
      (number, offer) ∈ network.offered ++ network.offers sha256 base64 link around event →
      (number, other) ∈ network.offered ++ network.offers sha256 base64 link around event →
      offer = other
  | .receiver call =>
    (∀ event, call.message = some (link.source, event) → event ∈ network.sent) ∧
    ∀ asked ∈ network.asked ++ network.requests sha256 base64 link call,
      ∀ other ∈ network.asked ++ network.requests sha256 base64 link call,
        asked.key = other.key → asked = other

def next : Step Address P → Network Address P
  | .elapse => { network with now := network.now + 1 }
  | .source around event =>
    { network with
      source := network.source.handle sha256 base64 around event
      sent := network.sent ++ network.told sha256 base64 link around event
      offered := network.offered ++ network.offers sha256 base64 link around event
      reads := network.reads ++ network.begun sha256 base64 around event }
  | .receiver call =>
    { network with
      receiver := (network.receiver.perform sha256 base64 call).state
      asked := network.asked ++ network.requests sha256 base64 link call }

end Network

/-- The bytes were read for a request, after it was made, from the file that was recorded when the
selection was offered. -/
def Network.Served {Address P : Type} (life : DiskLife) (network : Network Address P)
    (key : UInt64 × UInt64 × UInt64) (offset : UInt64) (data : Bytes) : Prop :=
  ∃ asked ∈ network.asked, asked.key = key ∧ ∃ offer path identity,
    (key.1, offer) ∈ network.offered ∧ offer.sources.lookup key.2.1 = some (path, identity) ∧
    life.Found asked.moment network.now path identity offset data

/-- The response to the adapter answers a request of its transfer with bytes of the file that was
recorded when the selection was offered. -/
structure Network.Carries {Address P : Type} [DecidableEq P] (base64 : Bytes → String)
    (link : Link Address P) (network : Network Address P) (adapterId : AdapterId)
    (response : RangeResponse) (asked : Asked) (offer : FileOffer) (entry : ClipboardManifestEntry)
    (path : PathBuf) (identity : SourceIdentity) (data : Bytes) : Prop where
  known : asked ∈ network.asked
  addressed : ∃ transfer,
    network.receiver.remoteTransfers.lookup ⟨link.source, asked.wireId⟩ = some transfer ∧
    transfer.adapterId = adapterId ∧ transfer.adapterTransferId = response.transferId
  request : response.requestId = asked.requestId
  offset : response.offset = asked.offset
  pending : ∃ range, network.receiver.pending.lookup (⟨link.source, asked.wireId⟩, asked.fileId,
    asked.requestId) = some range ∧ range.key.offset = asked.offset ∧
    range.key.length = asked.length
  offered : (asked.wireId, offer) ∈ network.offered
  listed : entry ∈ offer.entries ∧ entry.fileId = asked.fileId
  recorded : offer.sources.lookup asked.fileId = some (path, identity)
  encoded : response.dataBase64 = base64 data
  whole : data.length = asked.length.toNat ∨ asked.offset.toNat + data.length = entry.size.toNat
  content : link.life.Holds identity asked.offset data
  found : link.life.Found asked.moment network.now path identity asked.offset data

/-- Both devices from their start on. -/
def networkMachine {Address P : Type} [DecidableEq Address] [DecidableEq P]
    (sha256 : Bytes → Digest) (base64 : Bytes → String) (link : Link Address P) :
    Machine (Network Address P) (Step Address P) where
  initial :=
    { now := 0, source := .new link.startedAt, receiver := .new, asked := [], sent := [],
      offered := [], reads := [] }
  enabled := fun network step => network.Permits sha256 base64 link step
  next := fun network step => network.next sha256 base64 link step

variable {Address P : Type} [DecidableEq Address] [DecidableEq P] {sha256 : Bytes → Digest}
  {base64 : Bytes → String} {link : Link Address P} {network : Network Address P}

namespace Network

/-- What the devices know of each other is true. -/
structure Faithful (link : Link Address P) (network : Network Address P) : Prop where
  source : network.source.transfers.Sound False
  receiver : network.receiver.Sound False
  fresh : ∀ asked ∈ network.asked, ∀ other ∈ network.asked, asked.key = other.key → asked = other
  past : ∀ asked ∈ network.asked, asked.moment ≤ network.now
  numbered : ∀ number offer other, (number, offer) ∈ network.offered →
    (number, other) ∈ network.offered → offer = other
  offers : ∀ wireId transfer,
    network.source.transfers.localTransfers.lookup ⟨link.receiver, wireId⟩ = some transfer →
    (wireId, transfer.offer) ∈ network.offered
  reads : ∀ read ∈ network.reads, read.owner.peer = link.receiver →
    (read.owner.wireId, read.offer) ∈ network.offered ∧
      ∃ asked ∈ network.asked, asked.key = (read.owner.wireId, read.fileId, read.requestId) ∧
        asked.moment ≤ read.since
  manifests : ∀ wireId entries, .clipboardManifest wireId entries ∈ network.sent →
    ∃ offer, (wireId, offer) ∈ network.offered ∧ entries = offer.entries
  chunks : ∀ wireId fileId requestId offset data,
    .clipboardFileChunk wireId fileId requestId offset data ∈ network.sent →
    network.Served link.life (wireId, fileId, requestId) offset data
  pending : ∀ wireId fileId requestId range,
    network.receiver.pending.lookup (⟨link.source, wireId⟩, fileId, requestId) = some range →
    ∃ moment, ⟨wireId, fileId, requestId, range.key.offset, range.key.length, moment⟩ ∈
      network.asked
  kept : ∀ wireId fileId requestId range,
    network.receiver.pending.lookup (⟨link.source, wireId⟩, fileId, requestId) = some range →
    range.chunk ≠ [] → .clipboardFileChunk wireId fileId requestId range.key.offset range.chunk ∈
      network.sent
  taken : ∀ wireId transfer,
    network.receiver.remoteTransfers.lookup ⟨link.source, wireId⟩ = some transfer →
    ∃ offer, (wireId, offer) ∈ network.offered ∧
      transfer.entries = entriesById offer.entries

theorem mem_messagesTo {peer : P} {messages : List (P × ProtoEvent)} {message : ProtoEvent} :
    message ∈ messagesTo peer messages ↔ (peer, message) ∈ messages := by
  simp only [messagesTo, mem_map, mem_filter, decide_eq_true_eq, Prod.exists]
  constructor
  · rintro ⟨_, _, ⟨member, rfl⟩, rfl⟩
    exact member
  · intro member
    exact ⟨peer, message, ⟨member, rfl⟩, rfl⟩

theorem mem_requestsIn {moment : ℕ} {messages : List ProtoEvent} {asked : Asked} :
    asked ∈ requestsIn moment messages ↔ asked.moment = moment ∧
      .clipboardFileRequest asked.wireId asked.fileId asked.requestId asked.offset asked.length ∈
        messages := by
  simp only [requestsIn, mem_filterMap]
  constructor
  · rintro ⟨message, member, shown⟩
    cases message with
    | clipboardFileRequest =>
      cases shown
      exact ⟨rfl, member⟩
    | _ => cases shown
  · rintro ⟨rfl, member⟩
    exact ⟨_, member, rfl⟩

omit [DecidableEq Address] in
theorem mem_readsOf {since : ℕ} {actions : List (TransferAction (Peer Address))}
    {read : ReadSource Address} :
    read ∈ readsOf since actions ↔ read.since = since ∧
      .readSource read.owner read.fileId read.requestId read.offset read.length read.offer ∈
        actions := by
  simp only [readsOf, mem_filterMap]
  constructor
  · rintro ⟨action, member, shown⟩
    cases action with
    | readSource =>
      cases shown
      exact ⟨rfl, member⟩
    | _ => cases shown
  · rintro ⟨rfl, member⟩
    exact ⟨_, member, rfl⟩

omit [DecidableEq Address] [DecidableEq P] in
theorem Served.mono {later : Network Address P} {life : DiskLife} {key : UInt64 × UInt64 × UInt64}
    {offset : UInt64} {data : Bytes} (served : network.Served life key offset data)
    (moment : network.now ≤ later.now) (asked : ∀ asked ∈ network.asked, asked ∈ later.asked)
    (offered : ∀ offer ∈ network.offered, offer ∈ later.offered) :
    later.Served life key offset data := by
  rcases served with ⟨earlier, known, same, offer, path, identity, made, recorded, found⟩
  exact ⟨earlier, asked _ known, same, offer, path, identity, offered _ made, recorded,
    found.mono le_rfl moment⟩

variable {around : Surroundings Address} {event : Event Address} {wireId fileId requestId : UInt64}
  {entries : List ClipboardManifestEntry}

omit [DecidableEq P] in
theorem mem_offers_of_told (sound : network.source.transfers.Sound False)
    (told : .clipboardManifest wireId entries ∈ network.told sha256 base64 link around event) :
    ∃ offer, (wireId, offer) ∈ network.offers sha256 base64 link around event ∧
      entries = offer.entries ∧
      ∀ operation : Call (Peer Address), event.Allows around network.source operation →
        ∀ owner other, owner.wireId = wireId → operation.Offers owner other → other = offer := by
  have sent := mem_messagesTo.mp told
  rcases handle_performs sha256 base64 around network.source event with ⟨_, performs, same⟩
  rw [same] at sent
  rcases performs.returns sound sent with ⟨_, operation, allowed, offer, offers, rfl⟩
  cases operation with
  | localCopyManifest =>
    rcases allowed with ⟨result, _, rfl, selected, rfl⟩
    rcases offers with ⟨named, rfl⟩
    cases named
    refine ⟨_, ?_, rfl, ?_⟩
    · rcases result with ⟨_, _, _, _⟩
      subst selected
      exact mem_filterMap.mpr ⟨_, told, rfl⟩
    · intro operation allowed _ _ numbered offers
      cases operation with
      | localCopyManifest =>
        rcases allowed with ⟨_, _, same, reselected, rfl⟩
        cases same
        rw [selected] at reselected
        cases reselected
        rcases offers with ⟨rfl, rfl⟩
        subst numbered
        rfl
      | _ => exact offers.elim
  | _ => exact offers.elim

variable (faithful : network.Faithful link)
include faithful

theorem served_of_told (permitted :
      ∀ result, event = .sourceResult result →
        ∃ read ∈ network.reads, read.Yields sha256 link.life network.now result) {offset : UInt64}
    {data : Bytes} (told : .clipboardFileChunk wireId fileId requestId offset data ∈
      network.told sha256 base64 link around event) :
    network.Served link.life (wireId, fileId, requestId) offset data := by
  have sent := mem_messagesTo.mp told
  rcases handle_performs sha256 base64 around network.source event with ⟨_, performs, same⟩
  rw [same] at sent
  rcases performs.returns faithful.source sent with ⟨_, _, allowed, rfl⟩
  rcases allowed with ⟨result, _, _, rfl, read, owner, rfl, rfl⟩
  rcases permitted result rfl with ⟨begun, member, _, _, _, _, within, answers, rfl⟩
  have own : begun.owner = ⟨link.receiver, wireId⟩ := owner.symm
  simp only [ReadSource.result, bind_ok, pure_ok, Prod.mk.injEq] at read
  rcases read with ⟨_, opens, ⟨_, _⟩, reads, rfl, rfl, -⟩
  rcases FileOffer.found_of_read within answers opens reads with
    ⟨rfl, path, identity, recorded, found⟩
  rcases faithful.reads begun member (by rw [own]) with ⟨offered, asked, known, named, before⟩
  rw [own] at offered named
  exact ⟨asked, known, named, begun.offer, path, identity, offered, recorded,
    found.mono before le_rfl⟩

theorem asked_of_begun
    (permitted : ∀ operation, event.operation around network.source = some operation →
      ∀ wireId fileId requestId offset length, operation.message = some (link.receiver,
        .clipboardFileRequest wireId fileId requestId offset length) →
      ∃ moment, ⟨wireId, fileId, requestId, offset, length, moment⟩ ∈ network.asked)
    {read : ReadSource Address} (begun : read ∈ network.begun sha256 base64 around event)
    (own : read.owner.peer = link.receiver) :
    (read.owner.wireId, read.offer) ∈ network.offered ∧
      ∃ asked ∈ network.asked, asked.key = (read.owner.wireId, read.fileId, read.requestId) ∧
        asked.moment ≤ read.since := by
  unfold Network.begun at begun
  cases leads : event.operation around network.source with
  | none =>
    rw [leads] at begun
    cases begun
  | some operation =>
    rw [leads] at begun
    rcases mem_readsOf.mp begun with ⟨since, returned⟩
    have follows := perform_follows faithful.source sha256 base64 operation
    rcases follows.returns _ returned with ⟨handed, transfer, found, offer⟩
    rw [own] at handed
    rcases permitted operation leads _ _ _ _ _ handed with ⟨_, known⟩
    have named : read.owner = ⟨link.receiver, read.owner.wireId⟩ := by rw [← own]
    rw [named] at found
    refine ⟨offer ▸ faithful.offers _ transfer found, _, known, rfl, ?_⟩
    rw [since]
    exact faithful.past _ known

variable {range : PendingRange P}

theorem pending_of_perform (call : Call P)
    (found : (network.receiver.perform sha256 base64 call).state.pending.lookup
      (⟨link.source, wireId⟩, fileId, requestId) = some range) :
    ∃ moment, ⟨wireId, fileId, requestId, range.key.offset, range.key.length, moment⟩ ∈
      network.asked ++ network.requests sha256 base64 link call := by
  have follows := perform_follows faithful.receiver sha256 base64 call
  rcases follows.traced.ranges _ range found with ⟨before, there, key, _⟩ | ⟨_, told⟩
  · rcases faithful.pending _ _ _ before there with ⟨moment, known⟩
    rw [key] at known
    exact ⟨moment, mem_append_left _ known⟩
  · refine ⟨network.now, mem_append_right _ ?_⟩
    exact mem_requestsIn.mpr ⟨rfl, mem_messagesTo.mpr told⟩

variable {call : Call P}

theorem kept_of_perform
    (permitted : ∀ event, call.message = some (link.source, event) → event ∈ network.sent)
    (found : (network.receiver.perform sha256 base64 call).state.pending.lookup
      (⟨link.source, wireId⟩, fileId, requestId) = some range) (nonempty : range.chunk ≠ []) :
    .clipboardFileChunk wireId fileId requestId range.key.offset range.chunk ∈ network.sent := by
  have follows := perform_follows faithful.receiver sha256 base64 call
  rcases follows.traced.ranges _ range found with ⟨before, there, key, same | handed⟩ | ⟨empty, _⟩
  · have kept := faithful.kept _ _ _ before there (same ▸ nonempty)
    rwa [key, same] at kept
  · exact permitted _ handed
  · exact absurd empty nonempty

theorem taken_of_perform
    (permitted : ∀ event, call.message = some (link.source, event) → event ∈ network.sent)
    {transfer : RemoteTransfer}
    (found : (network.receiver.perform sha256 base64 call).state.remoteTransfers.lookup
      ⟨link.source, wireId⟩ = some transfer) :
    ∃ offer, (wireId, offer) ∈ network.offered ∧
      transfer.entries = entriesById offer.entries := by
  have follows := perform_follows faithful.receiver sha256 base64 call
  rcases follows.traced.manifests _ transfer found with ⟨before, there, same⟩
    | ⟨entries, handed, is⟩
  · rw [← same]
    exact faithful.taken wireId before there
  · rcases faithful.manifests wireId entries (permitted _ handed) with ⟨offer, offered, rfl⟩
    exact ⟨offer, offered, is⟩

omit faithful

variable (sha256 base64) in
theorem faithful_elapse (faithful : network.Faithful link) :
    (network.next sha256 base64 link .elapse).Faithful link :=
  { faithful with
    past := fun asked known => Nat.le_succ_of_le (faithful.past asked known)
    chunks := fun _ _ _ _ _ sent => (faithful.chunks _ _ _ _ _ sent).mono (Nat.le_succ _)
      (fun _ known => known) fun _ made => made }

theorem faithful_source (faithful : network.Faithful link)
    (permitted : network.Permits sha256 base64 link (.source around event)) :
    (network.next sha256 base64 link (.source around event)).Faithful link := by
  rcases permitted with ⟨requested, read, numbered⟩
  rcases handle_performs sha256 base64 around network.source event with ⟨_, performs, same⟩
  refine
    { source := performs.sound faithful.source
      receiver := faithful.receiver
      fresh := faithful.fresh
      past := faithful.past
      numbered := numbered
      offers := ?_
      reads := ?_
      manifests := ?_
      chunks := ?_
      pending := faithful.pending
      kept := fun _ _ _ range found nonempty =>
        mem_append_left _ (faithful.kept _ _ _ range found nonempty)
      taken := ?_ }
  · intro wireId transfer found
    rcases performs.offers faithful.source found with
      ⟨before, there, offer⟩ | ⟨⟨operation, allowed, offers⟩, told⟩
    · exact mem_append_left _ (offer ▸ faithful.offers wireId before there)
    · have announced := mem_messagesTo.mpr ((same _).mpr told)
      rcases mem_offers_of_told faithful.source announced with ⟨offer, made, _, only⟩
      rw [only operation allowed _ _ rfl offers]
      exact mem_append_right _ made
  · intro begun member own
    rcases mem_append.mp member with earlier | new
    · rcases faithful.reads begun earlier own with ⟨offered, asked⟩
      exact ⟨mem_append_left _ offered, asked⟩
    · rcases asked_of_begun faithful requested new own with ⟨offered, asked⟩
      exact ⟨mem_append_left _ offered, asked⟩
  · intro wireId entries sent
    rcases mem_append.mp sent with earlier | new
    · rcases faithful.manifests wireId entries earlier with ⟨offer, offered, is⟩
      exact ⟨offer, mem_append_left _ offered, is⟩
    · rcases mem_offers_of_told faithful.source new with ⟨offer, made, is, _⟩
      exact ⟨offer, mem_append_right _ made, is⟩
  · intro wireId fileId requestId offset data sent
    have served : network.Served link.life (wireId, fileId, requestId) offset data := by
      rcases mem_append.mp sent with earlier | new
      · exact faithful.chunks _ _ _ _ _ earlier
      · exact served_of_told faithful read new
    exact served.mono le_rfl (fun _ known => known) fun _ made => mem_append_left _ made
  · intro wireId transfer found
    rcases faithful.taken wireId transfer found with ⟨offer, offered, is⟩
    exact ⟨offer, mem_append_left _ offered, is⟩

theorem faithful_receiver (faithful : network.Faithful link)
    (permitted : network.Permits sha256 base64 link (.receiver call)) :
    (network.next sha256 base64 link (.receiver call)).Faithful link where
  source := faithful.source
  receiver := faithful.receiver.perform sha256 base64 False.elim
  fresh := permitted.2
  past := by
    intro asked known
    rcases mem_append.mp known with earlier | new
    · exact faithful.past asked earlier
    · exact (mem_requestsIn.mp new).1.le
  numbered := faithful.numbered
  offers := faithful.offers
  reads := by
    intro read begun own
    rcases faithful.reads read begun own with ⟨offered, asked, known, rest⟩
    exact ⟨offered, asked, mem_append_left _ known, rest⟩
  manifests := faithful.manifests
  chunks := fun _ _ _ _ _ sent => (faithful.chunks _ _ _ _ _ sent).mono le_rfl
    (fun _ known => mem_append_left _ known) fun _ made => made
  pending := fun _ _ _ _ found => pending_of_perform faithful call found
  kept := fun _ _ _ _ found nonempty => kept_of_perform faithful permitted.1 found nonempty
  taken := fun _ _ found => taken_of_perform faithful permitted.1 found

theorem faithful_initial : (networkMachine sha256 base64 link).initial.Faithful link where
  source := new_sound
  receiver := new_sound
  fresh := by simp [networkMachine]
  past := by simp [networkMachine]
  numbered := by simp [networkMachine]
  offers := by simp [networkMachine, Service.new, TransferState.new]
  reads := by simp [networkMachine]
  manifests := by simp [networkMachine]
  chunks := by simp [networkMachine]
  pending := by simp [networkMachine, TransferState.new]
  kept := by simp [networkMachine, TransferState.new]
  taken := by simp [networkMachine, TransferState.new]

theorem faithful_of_run {history : List (Network Address P)}
    (run : Run (networkMachine sha256 base64 link) history) (member : network ∈ history) :
    network.Faithful link := by
  apply run.invariant _ network member
  refine ⟨?_, ?_⟩
  · exact faithful_initial
  · intro _ step faithful permitted
    cases step with
    | elapse => exact faithful_elapse sha256 base64 faithful
    | source => exact faithful_source faithful permitted
    | receiver => exact faithful_receiver faithful permitted

theorem mem_of_lookup_entriesById {entry : ClipboardManifestEntry}
    (listed : (entriesById entries).lookup fileId = some entry) :
    entry ∈ entries ∧ entry.fileId = fileId := by
  induction entries using reverseRec with
  | nil => cases listed
  | append_singleton _ _ ih =>
    simp only [entriesById, foldl_append, foldl_cons, foldl_nil, lookup_insert] at listed
    split at listed
    · rename_i same
      cases listed
      exact ⟨mem_append_right _ (mem_singleton_self _), same.symm⟩
    · exact (ih listed).imp_left (mem_append_left _)

theorem Faithful.carries (faithful : network.Faithful link)
    (permitted : ∀ event, call.message = some (link.source, event) → event ∈ network.sent)
    {adapterId : AdapterId} {response : RangeResponse} {entry : ClipboardManifestEntry}
    {data : Bytes} (responds : network.receiver.Responds base64 call adapterId response
      (⟨link.source, wireId⟩, fileId, requestId) range entry data) :
    ∃ asked offer path identity,
      network.Carries base64 link adapterId response asked offer entry path identity data := by
  have sent : .clipboardFileChunk wireId fileId requestId range.key.offset data ∈ network.sent := by
    rcases responds.brought.2 with handed | ⟨rfl, nonempty⟩
    · exact permitted _ handed
    · exact faithful.kept _ _ _ range responds.pending nonempty
  rcases faithful.pending _ _ _ range responds.pending with ⟨_, known⟩
  rcases faithful.chunks _ _ _ _ _ sent with
    ⟨asked, asks, named, offer, path, identity, offered, recorded, found⟩
  have same := faithful.fresh asked asks _ known named
  subst same
  rcases responds.listed with ⟨transfer, remote, listed, addressed⟩
  rcases faithful.taken wireId transfer remote with ⟨other, also, entries⟩
  cases faithful.numbered wireId offer other offered also
  rw [entries] at listed
  exact ⟨_, offer, path, identity,
    { known := known
      addressed := ⟨transfer, remote, addressed⟩
      request := responds.request
      offset := responds.offset
      pending := ⟨range, responds.pending, rfl, rfl⟩
      offered := offered
      listed := mem_of_lookup_entriesById listed
      recorded := recorded
      encoded := responds.encoded
      whole := responds.covers
      content := found.holds
      found := found }⟩

/-- In every run of the two devices, whatever is lost, repeated or overtaken between them and
however the disk changes, a response to an adapter comes of a message of a peer. Where that is the
device that offers the files, the response carries the bytes that the file recorded in the offer has
at the offset, all that was asked for unless they end the file; and the file was still as recorded
after the request was made. -/
theorem carries_of_run {history : List (Network Address P)}
    (run : Run (networkMachine sha256 base64 link) history) (member : network ∈ history)
    {call : Call P} (permitted : network.Permits sha256 base64 link (.receiver call))
    {adapterId : AdapterId} {response : RangeResponse}
    (returned : .adapter adapterId (.rangeResponse response) ∈
      (network.receiver.perform sha256 base64 call).result.toOption.getD []) :
    ∃ peer event, call.message = some (peer, event) ∧
      (peer = link.source → ∃ asked offer entry path identity data,
        network.Carries base64 link adapterId response asked offer entry path identity data) := by
  have faithful := faithful_of_run run member
  have follows := perform_follows faithful.receiver sha256 base64 call
  rcases follows.returns _ returned with ⟨⟨⟨peer, _⟩, _, _⟩, _, entry, data, responds⟩
  rcases responds.brought.1 with ⟨event, handed⟩
  refine ⟨peer, event, handed, ?_⟩
  rintro rfl
  rcases faithful.carries permitted.1 responds with ⟨asked, offer, path, identity, carries⟩
  exact ⟨asked, offer, entry, path, identity, data, carries⟩

def abcVersion : Version where
  metadata :=
    { len := 3, modified := some 0, dev := 1, ino := 1, isFile := true, isDir := false,
      isSymlink := false }
  bytes := [0x61, 0x62, 0x63]

def abcLife : DiskLife where
  disk _ :=
    { names := fun _ => some ⟨1, 1⟩
      file := fun place => if place = ⟨1, 1⟩ then some abcVersion else none
      placed := by
        intro place version there
        split at there
        · rename_i same
          cases there
          exact same
        · cases there }
  renewed := fun _ _ _ there => .inl there

def abcLink : Link String ℕ := ⟨abcLife, 0, .capture 1, 0⟩

def abcCopied : FileOffer where
  transferId := 1
  entries := [⟨1, "abc.txt", .file, 3⟩]
  sources := .singleton 1 (.ofText "/tmp/abc.txt", abcVersion.identity)

def abcRead : ReadSource String :=
  ⟨⟨.capture 1, 1⟩, 1, 1, 0, 3, { abcCopied with transferId := 1 }, 0⟩

def abcReading : Io :=
  { Io.obliging 3 [] with
    read := fun turn => .ok (if turn = 0 then [0x61, 0x62, 0x63] else []) }

def pasted : List (Step String ℕ) :=
  [.source calm (.adapterMessage "7" (.copyManifest ⟨"7", .copy⟩)),
    .source calm (.manifestOffer ⟨1, "7", ⟨"7", .copy⟩, .ok abcCopied⟩),
    .receiver (.inboundManifest (.asStored _) 0 "1" "1" 1 .copy [⟨1, "abc.txt", .file, 3⟩]),
    .receiver (.adapterRangeRequest (.asStored _) "1" ⟨"1", 1, 1, 0, 3⟩),
    .source calm (.clipboard 1 "aa" (.clipboardFileRequest 1 1 1 0 3)),
    .source calm (.sourceResult
      (abcRead.result (fun _ => TransferState.abcDigest) (Io.obliging 3 []) abcReading)),
    .receiver (.inboundChunk 0 1 1 1 0 [0x61, 0x62, 0x63])]

/-- The devices after a sequence of steps. -/
def afterSteps (steps : List (Step String ℕ)) : Network String ℕ :=
  (networkMachine (fun _ => TransferState.abcDigest) (fun _ => "YWJj") abcLink).after
    (networkMachine (fun _ => TransferState.abcDigest) (fun _ => "YWJj") abcLink).initial steps

theorem abcRead_yields (now : ℕ) : abcRead.Yields (fun _ => TransferState.abcDigest) abcLife now
    (abcRead.result (fun _ => TransferState.abcDigest) (Io.obliging 3 []) abcReading) := by
  refine ⟨⟨0, 0, fun _ => 0, fun _ => 0⟩, ⟨1, 1⟩, Io.obliging 3 [], abcReading, ?_, ?_, rfl⟩
  · exact ⟨le_rfl, le_rfl, le_rfl, fun _ _ _ => le_rfl, fun _ => le_rfl, fun _ => le_rfl,
      fun _ => Nat.zero_le _⟩
  · intro _ _ _
    refine ⟨fun _ => rfl, ?_, ?_, ?_⟩
    · rintro _ ⟨⟩
      exact ⟨abcVersion, rfl, rfl⟩
    · rintro _ _ ⟨⟩
      exact ⟨abcVersion, rfl, rfl⟩
    · rintro turn _ ⟨⟩
      refine ⟨abcVersion, rfl, ?_⟩
      cases turn with
      | zero => exact prefix_refl _
      | succ => exact nil_prefix

theorem numbered_of_few {offers : List (UInt64 × FileOffer)} (few : offers.length ≤ 1) :
    ∀ number offer other, (number, offer) ∈ offers → (number, other) ∈ offers → offer = other := by
  intro _ _ _ first second
  match offers, few with
  | [_], _ => exact congrArg Prod.snd ((mem_singleton.mp first).trans
    (mem_singleton.mp second).symm)

theorem pasted_follows :
    (networkMachine (fun _ => TransferState.abcDigest) (fun _ => "YWJj") abcLink).Follows
      (networkMachine (fun _ => TransferState.abcDigest) (fun _ => "YWJj") abcLink).initial
      pasted := by
  refine ⟨⟨?_, ?_, numbered_of_few ?_⟩, ⟨?_, ?_, numbered_of_few ?_⟩, ⟨?_, ?_⟩, ⟨?_, ?_⟩,
    ⟨?_, ?_, numbered_of_few ?_⟩, ⟨?_, ?_, numbered_of_few ?_⟩, ⟨?_, ?_⟩, trivial⟩
  · rintro operation ⟨⟩
  · rintro result ⟨⟩
  · decide +kernel
  · rintro operation ⟨⟩
  · rintro result ⟨⟩
  · decide +kernel
  · rintro event ⟨⟩
    decide +kernel
  · decide +kernel
  · rintro event ⟨⟩
  · decide +kernel
  · rintro operation ⟨⟩ _ _ _ _ _ ⟨⟩
    exact ⟨0, by decide +kernel⟩
  · rintro result ⟨⟩
  · decide +kernel
  · rintro _ ⟨⟩
  · rintro _ ⟨⟩
    exact ⟨abcRead, .head _, abcRead_yields _⟩
  · decide +kernel
  · rintro _ ⟨⟩
    decide +kernel
  · decide +kernel

theorem carries_of_run_abc :
    ∃ asked offer entry path identity data,
      (afterSteps pasted).Carries (fun _ => "YWJj") abcLink "1" ⟨"1", 1, 0, "YWJj", true, none⟩
        asked offer entry path identity data := by
  rcases Run.of_follows pasted_follows with ⟨_, run⟩
  have permitted : (afterSteps pasted).Permits (fun _ => TransferState.abcDigest)
      (fun _ => "YWJj") abcLink
      (.receiver (.inboundComplete 0 1 1 1 3 TransferState.abcDigest)) := by
    refine ⟨?_, ?_⟩
    · rintro event ⟨⟩
      decide +kernel
    · decide +kernel
  have returned : .adapter "1" (.rangeResponse ⟨"1", 1, 0, "YWJj", true, none⟩) ∈
      ((afterSteps pasted).receiver.perform (fun _ => TransferState.abcDigest) (fun _ => "YWJj")
        (.inboundComplete 0 1 1 1 3 TransferState.abcDigest)).result.toOption.getD [] :=
    .head _
  rcases carries_of_run run (.head _) permitted returned with ⟨_, _, ⟨⟩, carries⟩
  exact carries rfl

end Network

end Syntra.Service
