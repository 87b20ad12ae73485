import Syntra.Clients.Service

/-!
# The configuration file

How the configuration is written (`write_back`). The directory is not watched while the file is
written, and the file loses what it holds before it is given anything else, so that a write that
fails leaves the one unwatched and the other broken.
-/

namespace Syntra.Clients

open ByteFormat

/-- The texts of configurations. -/
structure Toml (Ip : Type) where
  write : ConfigToml Ip → Bytes
  read : Bytes → Option (ConfigToml Ip)

/-- The configuration file, and whether its directory is watched. -/
structure Disk where
  file : Option Bytes
  /-- The directory of the file is watched. -/
  watched : Bool
  deriving DecidableEq

/-- Where a write fails. -/
inductive WriteFailure where
  | createDirectory
  | createFile
  /-- After that many bytes. -/
  | write (written : ℕ)
  | sync

/-- What a write meets: `watch` and `unwatch` may fail, which is ignored. -/
structure WriteOutcome where
  unwatches : Bool
  watches : Bool
  failure : Option WriteFailure

/-- What is in the file when a write of this content has failed. -/
def WriteFailure.file (failure : WriteFailure) (content : Bytes) (file : Option Bytes) :
    Option Bytes :=
  match failure with
  | .createDirectory => file
  | .createFile => file
  | .write written => some (content.take written)
  | .sync => some content

def writeBack (outcome : WriteOutcome) (content : Bytes) (disk : Disk) : Disk × Bool :=
  let unwatched := disk.watched && !outcome.unwatches
  match outcome.failure with
  | some failure => (⟨failure.file content disk.file, unwatched⟩, false)
  | none => (⟨some content, unwatched || outcome.watches⟩, true)

/-- The operations that write the configuration. -/
inductive ConfigWrite (Ip : Type) where
  | persistFileReceiveSettings (config : Config Ip) (settings : FileReceiveSettings)
  | saveConfig (service : Service Ip)

variable {Ip : Type} [LinearOrder Ip]

def ConfigWrite.written : ConfigWrite Ip → Config Ip
  | .persistFileReceiveSettings config settings => config.setFileReceiveSettings settings
  | .saveConfig service => service.savedConfig

/-- What is on the disk afterwards, whether no failure is reported, and the configuration. -/
def ConfigWrite.run (toml : Toml Ip) (outcome : WriteOutcome) (disk : Disk)
    (call : ConfigWrite Ip) : Disk × Bool × Config Ip :=
  let after := writeBack outcome (toml.write call.written.document) disk
  (after.1, after.2, match call with
    | .persistFileReceiveSettings config settings =>
      (config.persistFileReceiveSettings settings after.2).1
    | .saveConfig service => service.savedConfig)

/-- The file holds what was saved last, and changes of it are noticed. -/
def Disk.Intact (toml : Toml Ip) (saved : ConfigToml Ip) (disk : Disk) : Prop :=
  disk.file.bind toml.read = some saved ∧ disk.watched = true

/-- The failure comes before the file is cut. -/
def WriteFailure.BeforeCut : WriteFailure → Prop
  | .createDirectory | .createFile => True
  | .write _ | .sync => False

theorem watched_of_failure (toml : Toml Ip) (unwatches watches : Bool) (failure : WriteFailure)
    (disk : Disk) (call : ConfigWrite Ip) :
    (call.run toml ⟨unwatches, watches, some failure⟩ disk).1.watched = true ↔
      disk.watched = true ∧ unwatches = false := by
  simp [ConfigWrite.run, writeBack]

/-- A failed write leaves things as they were only if the directory was watched and could not be
unwatched. Before the file is cut it then does so just if the file holds what was saved last; from
then on it does so wherever it fails just if what was saved last is empty, and so is what is
written. -/
theorem failed_write_intact_iff (toml : Toml Ip) (unwatches watches : Bool) (disk : Disk)
    (call : ConfigWrite Ip) (saved : ConfigToml Ip)
    (empty : toml.write (.default Ip) = [] ∧ toml.read [] = some (.default Ip))
    (reads : toml.read (toml.write call.written.document) = some call.written.document) :
    let after failure := call.run toml ⟨unwatches, watches, some failure⟩ disk
    (∀ failure, (after failure).2.1 = false ∧ ((after failure).1.Intact toml saved →
      disk.watched = true ∧ unwatches = false)) ∧
    (∀ failure : WriteFailure, failure.BeforeCut → ((after failure).1.Intact toml saved ↔
      (disk.watched = true ∧ unwatches = false) ∧ disk.file.bind toml.read = some saved)) ∧
    ((∀ failure : WriteFailure, ¬failure.BeforeCut → (after failure).1.Intact toml saved) ↔
      (disk.watched = true ∧ unwatches = false) ∧
        saved = .default Ip ∧ call.written.document = .default Ip) := by
  intro after
  have watched (failure : WriteFailure) :=
    watched_of_failure toml unwatches watches failure disk call
  refine ⟨fun failure => ⟨rfl, fun intact => (watched failure).mp intact.2⟩, ?_, ?_⟩
  · intro failure early
    rw [Disk.Intact, watched, and_comm]
    cases failure with
    | createDirectory | createFile => rfl
    | write | sync => exact early.elim
  · constructor
    · intro intact
      have cut : toml.read [] = some saved := (intact (.write 0) id).1
      have whole : toml.read (toml.write call.written.document) = some saved :=
        (intact .sync id).1
      have blank : saved = .default Ip := Option.some.inj (cut.symm.trans empty.2)
      have same : call.written.document = saved := Option.some.inj (reads.symm.trans whole)
      exact ⟨(watched .sync).mp (intact .sync id).2, blank, same.trans blank⟩
    · rintro ⟨still, rfl, blank⟩ failure late
      refine ⟨?_, (watched failure).mpr still⟩
      cases failure with
      | createDirectory | createFile => exact absurd trivial late
      | write written =>
        show toml.read ((toml.write call.written.document).take written) = _
        rw [blank, empty.1, List.take_nil, empty.2]
      | sync =>
        show toml.read (toml.write call.written.document) = _
        rw [blank, empty.1, empty.2]

/-- A configuration with nothing but a port. -/
def withPort (port : UInt16) : ConfigToml ℕ := { ConfigToml.default ℕ with port := some port }

def portText : String := "port = 4243\n"

def receiveText : String :=
  "port = 4243\n\n[file_receive]\nauto_accept = true\ndownload_directory = \"/received\"\n"

/-- File receive settings are added to the configuration with port 4243. -/
def addReceive : ConfigWrite ℕ :=
  .persistFileReceiveSettings ⟨⟨none, none, none⟩, some (withPort 4243)⟩ ⟨true, .ofText "/received"⟩

/-- The file format at the texts that come up. -/
def portToml : Toml ℕ where
  write config :=
    if config.fileReceive.isSome then utf8 receiveText
    else if config.port.isSome then utf8 portText
    else []
  read text :=
    if text = [] then some (.default ℕ)
    else if text = utf8 portText then some (withPort 4243)
    else if text = (utf8 portText).take 9 then some (withPort 42)
    else if text = utf8 receiveText then some addReceive.written.document
    else none

/-- The directory cannot be unwatched, and the file cannot be created. -/
theorem intact_uncut : ((addReceive.run portToml ⟨false, true, some .createFile⟩
    ⟨some (utf8 portText), true⟩).1.Intact portToml (withPort 4243)) := by
  have reads : portToml.read (portToml.write addReceive.written.document) =
      some addReceive.written.document := by
    rfl
  refine ((failed_write_intact_iff portToml false true ⟨some (utf8 portText), true⟩ addReceive
    (withPort 4243) ⟨rfl, rfl⟩ reads).2.1 .createFile trivial).mpr ⟨⟨rfl, rfl⟩, ?_⟩
  rfl

/-- The disk is full after nine bytes: the file gives another port, and nobody watches it. -/
theorem cut_and_unwatched :
    let disk : Disk := ⟨some (utf8 portText), true⟩
    let after := (addReceive.run portToml ⟨true, true, some (.write 9)⟩ disk).1
    disk.Intact portToml (withPort 4243) ∧ ¬after.Intact portToml (withPort 4243) ∧
      after.file.bind portToml.read = some (withPort 42) := by
  refine ⟨⟨rfl, rfl⟩, fun intact => ?_, rfl⟩
  cases intact.2

end Syntra.Clients
