import Syntra.Clients.Launch

/-!
# The settings in the configuration

The service reads its settings when it starts and writes a change of one to the configuration. The
configuration holds the settings in force, except for a port and backends that the service was
started with and that were not chosen again since.
-/

namespace Syntra.Clients

open StateMachine Config Handler
open Syntra.Capture (CaptureRequest)
open Syntra.Files (PathBuf)
open Syntra.Proto (Position)
open Syntra.Service (ClientHandle)
open Tables

/-- The file is not changed by somebody else. -/
def ServiceInput.IsRequest {Ip : Type} : ServiceInput Ip → Prop
  | .configChanged _ => False
  | _ => True

/-- The service runs while its file is only changed by itself. -/
def serving {Ip : Type} [LinearOrder Ip] (host : Host Ip) (service : Service Ip) :
    Machine (Service Ip) (ServiceInput Ip) where
  initial := service
  enabled := fun service input =>
    (Handler.handle host input service).1 = .ok () ∧ input.IsRequest
  next := fun service input => (Handler.handle host input service).2

namespace Config

variable {Ip : Type} {config : Config Ip}

theorem bind_configToml {Field : Type} {field : ConfigToml Ip → Option Field}
    (blank : field (.default Ip) = none) :
    config.configToml.bind field = field config.document := by
  unfold document
  cases config.configToml with
  | none => exact blank.symm
  | some => rfl

def SameSettings (config later : Config Ip) : Prop :=
  later.document = { config.document with
    clients := later.document.clients
    authorizedFingerprints := later.document.authorizedFingerprints }

theorem sameSettings_setClients [LinearOrder Ip] (clients : List (ConfigClient Ip)) :
    config.SameSettings (config.setClients clients) := by
  unfold setClients
  split <;> rfl

theorem sameSettings_setAuthorizedKeys (fingerprints : Table String String) :
    config.SameSettings (config.setAuthorizedKeys fingerprints) :=
  rfl

namespace SameSettings

variable {later last : Config Ip}

theorem trans (first : config.SameSettings later) (second : later.SameSettings last) :
    config.SameSettings last := by
  unfold SameSettings at first second ⊢
  rw [second, first]

theorem reads (same : config.SameSettings later) {Field : Type}
    {field : ConfigToml Ip → Option Field} (blank : field (.default Ip) = none)
    (aside : ∀ document clients keys, field { document with
      clients := clients, authorizedFingerprints := keys } = field document) :
    later.configToml.bind field = config.configToml.bind field := by
  rw [bind_configToml blank, bind_configToml blank, same, aside]

theorem clipboardSettings (same : config.SameSettings later) :
    later.clipboardSettings = config.clipboardSettings := by
  unfold Config.clipboardSettings
  rw [same.reads rfl fun _ _ _ => rfl, same.reads rfl fun _ _ _ => rfl,
    same.reads rfl fun _ _ _ => rfl]

theorem fileReceiveSettings (same : config.SameSettings later) (downloads : PathBuf) :
    later.fileReceiveSettings downloads = config.fileReceiveSettings downloads := by
  unfold Config.fileReceiveSettings
  rw [same.reads rfl fun _ _ _ => rfl]

theorem plain (same : config.SameSettings later) :
    later.independentPointers = config.independentPointers ∧
      later.hopBypass = config.hopBypass ∧ later.multiHop = config.multiHop ∧
      later.edgePressure = config.edgePressure ∧ later.releaseBind = config.releaseBind := by
  unfold independentPointers hopBypass multiHop edgePressure releaseBind
  rw [same.reads rfl fun _ _ _ => rfl, same.reads rfl fun _ _ _ => rfl,
    same.reads rfl fun _ _ _ => rfl, same.reads rfl fun _ _ _ => rfl,
    same.reads rfl fun _ _ _ => rfl]
  exact ⟨rfl, rfl, rfl, rfl, rfl⟩

end SameSettings

end Config

namespace Service

variable {Ip : Type} [LinearOrder Ip] {host : Host Ip} {service later restarted : Service Ip}
  {overrides : ConfigOverrides}

/-- What the service has in use is what its configuration says. -/
structure Faithful (host : Host Ip) (overrides : ConfigOverrides) (service : Service Ip) :
    Prop where
  clipboard : service.clipboardSettings = service.config.clipboardSettings
  fileReceive : service.fileReceiveSettings = service.config.fileReceiveSettings host.downloads
  port : service.port = service.config.document.port.getD defaultPort ∨
    overrides.port = some service.port
  captureBackend : service.config.overrides.captureBackend = overrides.captureBackend ∨
    service.config.overrides.captureBackend = none
  emulationBackend : service.config.overrides.emulationBackend = overrides.emulationBackend ∨
    service.config.overrides.emulationBackend = none

/-- Nothing changes but clients, keys and peers. -/
structure SameConfig (service later : Service Ip) : Prop where
  config : later.config = service.config
  port : later.port = service.port
  clipboard : later.clipboardSettings = service.clipboardSettings
  fileReceive : later.fileReceiveSettings = service.fileReceiveSettings

omit [LinearOrder Ip] in
theorem Faithful.of_same (faithful : service.Faithful host overrides)
    (same : service.SameConfig later) : later.Faithful host overrides := by
  refine ⟨?_, ?_, ?_, ?_, ?_⟩
  · rw [same.clipboard, same.config]
    exact faithful.clipboard
  · rw [same.fileReceive, same.config]
    exact faithful.fileReceive
  · rw [same.port, same.config]
    exact faithful.port
  · rw [same.config]
    exact faithful.captureBackend
  · rw [same.config]
    exact faithful.emulationBackend

omit [LinearOrder Ip] in
theorem Faithful.of_sameSettings (faithful : service.Faithful host overrides) {config : Config Ip}
    (same : service.config.SameSettings config)
    (kept : config.overrides = service.config.overrides) :
    Faithful host overrides { service with config } := by
  refine ⟨?_, ?_, ?_, ?_, ?_⟩
  · exact faithful.clipboard.trans same.clipboardSettings.symm
  · exact faithful.fileReceive.trans (same.fileReceiveSettings _).symm
  · dsimp only
    rw [same]
    exact faithful.port
  · dsimp only
    rw [kept]
    exact faithful.captureBackend
  · dsimp only
    rw [kept]
    exact faithful.emulationBackend

theorem sameSettings_savedConfig : service.config.SameSettings service.savedConfig :=
  (sameSettings_setClients _).trans (sameSettings_setAuthorizedKeys _)

theorem overrides_savedConfig : service.savedConfig.overrides = service.config.overrides := by
  unfold savedConfig setAuthorizedKeys setClients
  split <;> rfl

omit [LinearOrder Ip] in
instance : Std.Refl (SameConfig : Service Ip → Service Ip → Prop) :=
  ⟨fun _ => ⟨rfl, rfl, rfl, rfl⟩⟩

omit [LinearOrder Ip] in
instance : IsTrans (Service Ip) SameConfig :=
  ⟨fun _ _ _ first second => ⟨second.config.trans first.config, second.port.trans first.port,
    second.clipboard.trans first.clipboard, second.fileReceive.trans first.fileReceive⟩⟩

def Aside (handler : Handler Ip Unit) : Prop := handler.Along SameConfig

section

omit [LinearOrder Ip]

theorem SameClients.sameConfig (same : service.SameClients later) : service.SameConfig later := by
  rw [same.rest]
  exact ⟨rfl, rfl, rfl, rfl⟩

theorem aside_manage (change : ClientManager Ip → ClientManager Ip) : Aside (manage change) :=
  fun _ => ⟨rfl, rfl, rfl, rfl⟩

theorem aside_request (request : CaptureRequest) :
    Aside (Handler.request request : Handler Ip Unit) :=
  fun _ => ⟨rfl, rfl, rfl, rfl⟩

end

variable (handle : ClientHandle)

section

omit [LinearOrder Ip]

theorem aside_deactivateClient : Aside (deactivateClient handle : Handler Ip Unit) := by
  intro _
  rw [ensures_deactivateClient]
  exact (sameClients_deactivated handle).sameConfig

theorem aside_activateClient : Aside (activateClient handle : Handler Ip Unit) := by
  intro _
  rw [ensures_activateClient]
  exact (sameClients_activated handle).sameConfig

theorem aside_removeClient : Aside (removeClient handle : Handler Ip Unit) := by
  intro _
  rw [ensures_removeClient]
  exact ⟨rfl, rfl, rfl, rfl⟩

theorem aside_updatePos (pos : Position) : Aside (updatePos handle pos : Handler Ip Unit) := by
  refine .bind .read fun _ => .bind (aside_manage _) fun _ => .ite ?_ (.pure ())
  exact .bind (aside_deactivateClient handle) fun _ => aside_activateClient handle

theorem aside_addClient : Aside (addClient : Handler Ip Unit) := by
  refine .bind .read fun _ => ?_
  split
  · exact aside_manage _
  · exact .stop _

end

theorem aside_addDiscoveredClient (addresses : List Ip) (port : UInt16) :
    Aside (addDiscoveredClient addresses port : Handler Ip Unit) := by
  refine .bind .read fun _ => .ite (.pure ()) ?_
  exact .bind aside_addClient fun _ => aside_manage _

omit [LinearOrder Ip] in
theorem aside_peers (triggers : Service Ip → ClientHandle)
    (conns : Service Ip → Finset (Emulation.SocketAddr Ip))
    (info : Service Ip → Table ClientHandle (Incoming Ip)) :
    Aside (update fun service => { service with
      nextTriggerHandle := triggers service
      incomingConns := conns service
      incomingConnInfo := info service }) :=
  fun _ => ⟨rfl, rfl, rfl, rfl⟩

variable (addr : Emulation.SocketAddr Ip)

theorem aside_addIncoming (pos : Position) (fingerprint : String) :
    Aside (addIncoming addr pos fingerprint) := by
  refine .bind .read fun _ => .ite (.stop _) ?_
  exact .bind (aside_request _) fun _ => aside_peers _ _ _

theorem aside_removeIncoming : Aside (removeIncoming host addr) := by
  refine .bind .read fun _ => ?_
  split
  · exact .pure ()
  · exact .bind (aside_request _) fun _ => aside_peers Service.nextTriggerHandle _ _

theorem aside_enter (pos : Position) (fingerprint : String) :
    Aside (enter host addr pos fingerprint) := by
  refine .bind .read fun service => .ite (.pure ()) (.ite (aside_addIncoming _ _ _) ?_)
  refine .bind .read fun _ => ?_
  split
  · exact .stop _
  · refine .bind (aside_peers Service.nextTriggerHandle Service.incomingConns _) fun _ => ?_
    refine .ite ?_ (.pure ())
    exact .bind (aside_removeIncoming addr) fun _ => aside_addIncoming _ _ _

def KeepsFaithful (host : Host Ip) (overrides : ConfigOverrides) (handler : Handler Ip Unit) :
    Prop :=
  handler.Keeps (Faithful host overrides)

omit [LinearOrder Ip] in
theorem KeepsFaithful.bind {first second : Handler Ip Unit}
    (before : KeepsFaithful host overrides first) (after : KeepsFaithful host overrides second) :
    KeepsFaithful host overrides (do first; second) := by
  intro service faithful
  rw [StateMachine.Handler.ensures_bind]
  exact (before service faithful).mono (fun _ later kept => after later kept) fun _ _ kept => kept

variable {handler : Handler Ip Unit} {set : ConfigToml Ip → ConfigToml Ip}

omit [LinearOrder Ip] in
theorem Aside.keepsFaithful (aside : Aside handler) :
    KeepsFaithful host overrides handler := fun service faithful =>
  (aside service).mono (fun _ _ same => faithful.of_same same) fun _ _ same =>
    faithful.of_same same

theorem keepsFaithful_saveConfig : KeepsFaithful host overrides (saveConfig : Handler Ip Unit) := by
  intro _ faithful
  exact faithful.of_sameSettings sameSettings_savedConfig overrides_savedConfig

theorem KeepsFaithful.saved (keeps : KeepsFaithful host overrides handler) :
    KeepsFaithful host overrides (do handler; saveConfig) :=
  keeps.bind keepsFaithful_saveConfig

omit [LinearOrder Ip] in
theorem Faithful.edited (faithful : service.Faithful host overrides) {overridden : ConfigOverrides}
    (clipboard : ∀ document, (set document).clipboardText = document.clipboardText ∧
      (set document).clipboardImage = document.clipboardImage ∧
      (set document).clipboardFiles = document.clipboardFiles)
    (fileReceive : ∀ document, (set document).fileReceive = document.fileReceive)
    (port : ∀ document, (set document).port = document.port)
    (captureBackend : overridden.captureBackend = service.config.overrides.captureBackend ∨
      overridden.captureBackend = none)
    (emulationBackend : overridden.emulationBackend = service.config.overrides.emulationBackend ∨
      overridden.emulationBackend = none) :
    Faithful host overrides { service with
      config := Config.edit { service.config with overrides := overridden } set } := by
  refine ⟨?_, ?_, ?_, ?_, ?_⟩
  · refine faithful.clipboard.trans ?_
    unfold Config.clipboardSettings
    rw [Config.bind_configToml rfl, Config.bind_configToml rfl, Config.bind_configToml rfl]
    simp only [Config.edit, Option.bind_some, clipboard]
    rfl
  · refine faithful.fileReceive.trans ?_
    unfold Config.fileReceiveSettings
    rw [Config.bind_configToml rfl]
    simp only [Config.edit, Option.bind_some, fileReceive]
    rfl
  · have before := faithful.port
    simp only [Config.edit, Config.document, Option.getD_some, port] at before ⊢
    exact before
  · rcases captureBackend with kept | cleared
    · exact faithful.captureBackend.imp kept.trans kept.trans
    · exact .inr cleared
  · rcases emulationBackend with kept | cleared
    · exact faithful.emulationBackend.imp kept.trans kept.trans
    · exact .inr cleared

omit [LinearOrder Ip] in
theorem keepsFaithful_configure
    (clipboard : ∀ document, (set document).clipboardText = document.clipboardText ∧
      (set document).clipboardImage = document.clipboardImage ∧
      (set document).clipboardFiles = document.clipboardFiles)
    (fileReceive : ∀ document, (set document).fileReceive = document.fileReceive)
    (port : ∀ document, (set document).port = document.port) :
    KeepsFaithful host overrides (configure (·.edit set)) := fun _ faithful =>
  faithful.edited clipboard fileReceive port (.inl rfl) (.inl rfl)

theorem keepsFaithful_setBackend {choices : List String} {name : Option String}
    {set : Config Ip → Option String → Config Ip}
    (keeps : KeepsFaithful host overrides (configure fun config => set config name)) :
    KeepsFaithful host overrides (setBackend choices name set) := by
  unfold setBackend
  split
  · exact keeps.saved
  · exact Aside.keepsFaithful (.pure ())

theorem keepsFaithful_setClipboard (change : ClipboardSettings → ClipboardSettings) :
    KeepsFaithful host overrides (setClipboard change : Handler Ip Unit) := by
  refine KeepsFaithful.saved fun _ faithful => ?_
  refine ⟨rfl, ?_, ?_, faithful.captureBackend, faithful.emulationBackend⟩
  · refine faithful.fileReceive.trans ?_
    unfold Config.fileReceiveSettings
    rw [Config.bind_configToml rfl]
    rfl
  · exact faithful.port

omit [LinearOrder Ip] in
theorem keepsFaithful_setFileReceive (settings : FileReceiveSettings) (writes : Bool) :
    KeepsFaithful host overrides (setFileReceive settings writes : Handler Ip Unit) := by
  unfold setFileReceive
  split
  · rename_i absolute
    intro _ faithful
    cases writes with
    | false => exact faithful
    | true =>
      refine ⟨?_, ?_, ?_, faithful.captureBackend, faithful.emulationBackend⟩
      · refine faithful.clipboard.trans ?_
        unfold Config.clipboardSettings
        rw [Config.bind_configToml rfl, Config.bind_configToml rfl, Config.bind_configToml rfl]
        rfl
      · rcases settings with ⟨_, _⟩
        simp [Config.persistFileReceiveSettings, Config.setFileReceiveSettings, Config.edit,
          Config.fileReceiveSettings, Option.filter, absolute]
      · exact faithful.port
  · exact Aside.keepsFaithful (.pure ())

theorem keepsFaithful_handleRequest (request : FrontendRequest Ip) :
    KeepsFaithful host overrides (handleRequest host request) := by
  have manage : ∀ change : ClientManager Ip → ClientManager Ip,
      KeepsFaithful host overrides (manage change) := fun change =>
    (aside_manage change).keepsFaithful
  have keys : ∀ change : Table String String → Table String String,
      KeepsFaithful host overrides (update fun service : Service Ip =>
        { service with authorizedKeys := change service.authorizedKeys }) := fun _ =>
    Aside.keepsFaithful fun _ => ⟨rfl, rfl, rfl, rfl⟩
  cases request with
  | activate handle active =>
    refine KeepsFaithful.saved ?_
    cases active with
    | true => exact (aside_activateClient handle).keepsFaithful
    | false => exact (aside_deactivateClient handle).keepsFaithful
  | authorizeKey => exact (keys _).saved
  | changePort => exact Aside.keepsFaithful (.pure ())
  | create => exact aside_addClient.keepsFaithful.saved
  | createDiscovered addresses port =>
    exact (aside_addDiscoveredClient addresses port).keepsFaithful.saved
  | delete handle => exact (aside_removeClient handle).keepsFaithful.saved
  | setInputSharing => exact Aside.keepsFaithful fun _ => ⟨rfl, rfl, rfl, rfl⟩
  | setIndependentPointers | setMultiHop | setHopBypass =>
    refine KeepsFaithful.saved (keepsFaithful_configure (fun _ => ?_) (fun _ => rfl) fun _ => rfl)
    exact ⟨rfl, rfl, rfl⟩
  | setCaptureBackend =>
    refine keepsFaithful_setBackend fun service faithful => ?_
    exact faithful.edited (fun _ => ⟨rfl, rfl, rfl⟩) (fun _ => rfl) (fun _ => rfl) (.inr rfl)
      (.inl rfl)
  | setEmulationBackend =>
    refine keepsFaithful_setBackend fun _ faithful => ?_
    exact faithful.edited (fun _ => ⟨rfl, rfl, rfl⟩) (fun _ => rfl) (fun _ => rfl) (.inl rfl)
      (.inr rfl)
  | updateFixIps | updateHostname | updatePort => exact (manage _).saved
  | updatePosition handle pos => exact (aside_updatePos handle pos).keepsFaithful.saved
  | removeAuthorizedKey => exact (keys _).saved
  | updateEnterHook handle enterHook => exact manage (·.setEnterHook handle enterHook)
  | setClipboardText | setClipboardImage | setClipboardFiles =>
    rw [handleRequest]
    exact keepsFaithful_setClipboard _
  | setFileReceiveSettings settings writes => exact keepsFaithful_setFileReceive settings writes
  | saveConfiguration => exact keepsFaithful_saveConfig

theorem keepsFaithful_handle {input : ServiceInput Ip} (byItself : input.IsRequest) :
    KeepsFaithful host overrides (Handler.handle host input) := by
  cases input with
  | request request => exact keepsFaithful_handleRequest request
  | portChanged port =>
    cases port with
    | none => exact Aside.keepsFaithful (.pure ())
    | some =>
      refine KeepsFaithful.saved fun service faithful => ?_
      refine ⟨?_, ?_, .inl rfl, faithful.captureBackend, faithful.emulationBackend⟩
      · refine faithful.clipboard.trans ?_
        unfold Config.clipboardSettings
        rw [Config.bind_configToml rfl, Config.bind_configToml rfl, Config.bind_configToml rfl]
        rfl
      · refine faithful.fileReceive.trans ?_
        unfold Config.fileReceiveSettings
        rw [Config.bind_configToml rfl]
        rfl
  | entered addr pos fingerprint => exact (aside_enter addr pos fingerprint).keepsFaithful
  | disconnected addr => exact (aside_removeIncoming addr).keepsFaithful
  | peerAuthenticated handle fingerprint changed =>
    intro service faithful
    rw [Handler.handle, StateMachine.Handler.ensures_bind, ensures_service]
    by_cases tells : (changed &&
        service.clientManager.peerFingerprint handle ≠ some fingerprint) = true
    · rw [if_pos tells]
      exact (aside_manage _).keepsFaithful.saved service faithful
    · rw [if_neg tells]
      exact faithful
  | resolving handle => exact (aside_manage (·.setResolving handle true)).keepsFaithful
  | resolved =>
    exact (aside_manage _).keepsFaithful.bind (aside_manage _).keepsFaithful
  | configChanged => exact byItself.elim

end Service

end Syntra.Clients
