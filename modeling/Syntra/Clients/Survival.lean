import Syntra.Clients.Settings

/-!
# The configuration across a restart

The service starts again with the same keys and settings, unless options say otherwise, and with the
same clients, unless there were none: then nothing is written of them, and those that were deleted
last come back. Of a file that was written by hand the legacy spelling of a name is lost, and so is
the activation of all but one of the clients at an edge.
-/

namespace Syntra.Clients

open StateMachine Config List ConfigClient Option TomlClient

/-- What is loaded from the file that `save_config` writes. -/
def Service.loadedConfig {Ip : Type} [LinearOrder Ip] (overrides : ConfigOverrides)
    (service : Service Ip) : Config Ip :=
  ⟨overrides, some service.savedConfig.document⟩

/-- A restart brings back the clients, keys and settings. -/
structure Survives {Ip : Type} [LinearOrder Ip] (host : Host Ip) (overrides : ConfigOverrides)
    (service restarted : Service Ip) : Prop where
  starts : Starts host (service.loadedConfig overrides) restarted
  clients : restarted.configClients = service.configClients
  keys : restarted.authorizedKeys = service.authorizedKeys
  settings : restarted.settings = service.settings

/-- There is a client to write, or none in the document, and no option that the service is started
with says otherwise than what was chosen since. -/
structure Recorded {Ip : Type} [LinearOrder Ip] (overrides : ConfigOverrides)
    (service : Service Ip) : Prop where
  clients : service.configClients ≠ [] ∨ service.config.clients = []
  port : ∀ port, overrides.port = some port → service.port = port
  captureBackend : ∀ backend, overrides.captureBackend = some backend →
    service.config.captureBackend = some backend
  emulationBackend : ∀ backend, overrides.emulationBackend = some backend →
    service.config.emulationBackend = some backend

/-- No field that is set is lost. What is as by default may be left out. -/
structure TomlClient.Keeps {Ip : Type} [DecidableEq Ip] (client kept : TomlClient Ip) : Prop where
  hostname : ∀ name, client.hostname = some name → kept.hostname = some name
  legacyHostName : ∀ name, client.legacyHostName = some name →
    kept.legacyHostName = some name ∨ kept.hostname = some name
  ips : ∀ ips, client.ips = some ips →
    ∃ others, kept.ips = some others ∧ others.toFinset = ips.toFinset
  port : ∀ port, client.port = some port → kept.port.getD defaultPort = port
  position : ∀ pos, client.position = some pos → kept.position.getD .left = pos
  activateOnStartup : ∀ active, client.activateOnStartup = some active →
    kept.activateOnStartup.getD false = active
  enterHook : ∀ hook, client.enterHook = some hook → kept.enterHook = some hook
  peerFingerprint : ∀ fingerprint, client.peerFingerprint = some fingerprint →
    kept.peerFingerprint = some fingerprint

def ConfigToml.clientList {Ip : Type} (document : ConfigToml Ip) : List (TomlClient Ip) :=
  document.clients.getD []

/-- A document whose clients are read as they are written: the legacy spelling says nothing new, and
no two clients want to be active at one edge. -/
structure ConfigToml.Clean {Ip : Type} [LinearOrder Ip] (document : ConfigToml Ip) : Prop where
  legacyHostName : ∀ client ∈ document.clientList, ∀ name,
    client.legacyHostName = some name → client.hostname = some name
  apart : (document.clientList.map ofToml).Pairwise ConfigClient.Apart

namespace Service

variable {Ip : Type} [LinearOrder Ip] {host : Host Ip} {service restarted : Service Ip}
  {overrides : ConfigOverrides} {config : Config Ip}

theorem Edges.apart (edges : service.Edges) : service.configClients.Pairwise Apart := by
  rw [configClients, pairwise_map, ClientManager.clientStates, pairwise_reverse]
  have different := nodupKeys_iff_pairwise.mp service.clientManager.clients.nodupKeys
  refine different.imp_of_mem fun {second first} two one distinct active activeToo same => ?_
  have edge : ∀ client ∈ service.clientManager.clients.entries, client.2.state.active = true →
      service.clientManager.edgeOf client.1 = some client.2.config.pos := by
    intro _ member active
    have found := ClientManager.mem_clientStates.mp (mem_reverse.mpr member)
    rw [ClientManager.edgeOf, found, bind_some, Client.edge, if_pos active]
  refine distinct (edges.owner _ _ _ (edge second two activeToo) ?_)
  rw [edge first one active]
  exact congrArg some same

theorem Edges.length_configClients (edges : service.Edges) :
    service.configClients.length ≤ enterHandleBegin.toNat := by
  have keys : service.configClients.length = (service.clientManager.clients.keys.map
      UInt64.toNat).length := by
    rw [configClients, ClientManager.clientStates, length_map, length_reverse, length_map]
    exact (length_map _).symm
  have distinct : (service.clientManager.clients.keys.map UInt64.toNat).Nodup :=
    service.clientManager.clients.nodupKeys.map fun _ _ same => UInt64.toNat.inj same
  have below : service.clientManager.clients.keys.map UInt64.toNat ⊆
      range enterHandleBegin.toNat := by
    intro _ member
    rcases mem_map.mp member with ⟨handle, known, rfl⟩
    rw [mem_range, ← UInt64.lt_iff_toNat_lt]
    exact UInt64.lt_of_lt_of_le (service.clientManager.below handle known) edges.room
  rw [keys]
  refine (Nodup.subperm distinct below).length_le.trans ?_
  rw [length_range]

theorem clients_savedConfig :
    service.savedConfig.document.clients =
      if service.configClients = [] then service.config.document.clients
      else some (service.configClients.map .ofConfig) := by
  unfold savedConfig setClients
  by_cases none : service.configClients = []
  · rw [if_pos none, if_pos (isEmpty_iff.mpr none)]
    rfl
  · rw [if_neg none, if_neg (mt List.isEmpty_iff.mp none)]
    rfl

theorem clients_loadedConfig :
    (service.loadedConfig overrides).clients =
      if service.configClients = [] then service.config.clients else service.configClients := by
  unfold clients loadedConfig
  rw [bind_some, clients_savedConfig]
  split
  · rw [bind_configToml rfl]
  · rw [Option.getD_some, List.map_map]
    refine (map_congr_left fun client _ => ?_).trans (map_id _)
    exact ofToml_ofConfig client

theorem or_eq_iff {override stored : Option String} {chosen : Option String}
    (faithful : chosen = override.or stored ∨ chosen = stored) :
    override.or stored = chosen ↔ ∀ backend, override = some backend → chosen = some backend := by
  cases override with
  | none => simpa using faithful.elim Eq.symm Eq.symm
  | some => simp [eq_comm]

theorem faithful_of_launched (launched : Launched host config service) :
    service.Faithful host config.overrides := by
  rw [launched.rest]
  refine ⟨rfl, rfl, ?_, .inl rfl, .inl rfl⟩
  change config.port = _ ∨ _ = some config.port
  unfold Config.port
  cases config.overrides.port with
  | none =>
    rw [none_or, Config.bind_configToml rfl]
    exact .inl rfl
  | some => exact .inr rfl

theorem sameSettings_loadedConfig : service.config.SameSettings (service.loadedConfig overrides) :=
  sameSettings_savedConfig

variable (faithful : service.Faithful host overrides)
include faithful

theorem port_loadedConfig_eq_iff :
    (service.loadedConfig overrides).port = service.port ↔
      ∀ port, overrides.port = some port → service.port = port := by
  have same : service.config.SameSettings (service.loadedConfig overrides) :=
    sameSettings_loadedConfig
  unfold Config.port
  rw [same.reads rfl fun _ _ _ => rfl, Config.bind_configToml rfl]
  change (overrides.port.or _).getD _ = _ ↔ _
  cases given : overrides.port with
  | none =>
    rcases faithful.port with kept | override
    · simp [kept]
    · rw [given] at override
      cases override
  | some => simp [eq_comm]

theorem captureBackend_loadedConfig_eq_iff :
    (service.loadedConfig overrides).captureBackend = service.config.captureBackend ↔
      ∀ backend, overrides.captureBackend = some backend →
        service.config.captureBackend = some backend := by
  have same : service.config.SameSettings (service.loadedConfig overrides) :=
    sameSettings_loadedConfig
  unfold captureBackend
  rw [same.reads rfl fun _ _ _ => rfl]
  refine or_eq_iff (faithful.captureBackend.imp (fun kept => ?_) fun cleared => ?_)
  · rw [kept]
    rfl
  · rw [cleared, none_or]

theorem emulationBackend_loadedConfig_eq_iff :
    (service.loadedConfig overrides).emulationBackend = service.config.emulationBackend ↔
      ∀ backend, overrides.emulationBackend = some backend →
        service.config.emulationBackend = some backend := by
  have same : service.config.SameSettings (service.loadedConfig overrides) :=
    sameSettings_loadedConfig
  unfold emulationBackend
  rw [same.reads rfl fun _ _ _ => rfl]
  refine or_eq_iff (faithful.emulationBackend.imp (fun kept => ?_) fun cleared => ?_)
  · rw [kept]
    rfl
  · rw [cleared, none_or]

/-- The service has the settings again, unless an option says otherwise than what was chosen. -/
theorem settings_loadedConfig_eq_iff :
    (Service.new host (service.loadedConfig overrides)).settings = service.settings ↔
      (service.loadedConfig overrides).port = service.port ∧
        (service.loadedConfig overrides).captureBackend = service.config.captureBackend ∧
        (service.loadedConfig overrides).emulationBackend = service.config.emulationBackend := by
  have same : service.config.SameSettings (service.loadedConfig overrides) :=
    sameSettings_loadedConfig
  rcases same.plain with ⟨pointers, bypass, hops, pressure, keys⟩
  have clipboard := same.clipboardSettings.trans faithful.clipboard.symm
  have fileReceive := (same.fileReceiveSettings host.downloads).trans faithful.fileReceive.symm
  rw [settings, settings, Settings.mk.injEq]
  simp only [Service.new, clipboard, fileReceive, pointers, bypass, hops, pressure, keys, true_and,
    and_true]

omit faithful

theorem survives_iff (edges : service.Edges) (faithful : service.Faithful host overrides) :
    (∃ restarted, Survives host overrides service restarted) ↔ Recorded overrides service := by
  constructor
  · rintro ⟨restarted, survives⟩
    have launched := launched_of_starts survives.starts
    have settings : (Service.new host (service.loadedConfig overrides)).settings =
        service.settings := by
      rw [← survives.settings, launched.rest]
      rfl
    rcases (settings_loadedConfig_eq_iff faithful).mp settings with ⟨port, capture, emulation⟩
    refine ⟨?_, (port_loadedConfig_eq_iff faithful).mp port,
      (captureBackend_loadedConfig_eq_iff faithful).mp capture,
      (emulationBackend_loadedConfig_eq_iff faithful).mp emulation⟩
    rw [or_iff_not_imp_left, not_not]
    intro nobody
    have idle := launched.idle
    rw [survives.clients, nobody, clients_loadedConfig, if_pos nobody] at idle
    exact map_eq_nil_iff.mp idle.symm
  · intro recorded
    have clients : (service.loadedConfig overrides).clients = service.configClients := by
      rw [clients_loadedConfig]
      split
      · rename_i nobody
        rw [nobody, recorded.clients.resolve_left (not_not.mpr nobody)]
      · rfl
    have fits : (service.loadedConfig overrides).clients.length ≤ enterHandleBegin.toNat := by
      rw [clients]
      exact edges.length_configClients
    have starts : ∃ restarted, Starts host (service.loadedConfig overrides) restarted :=
      starts_of_fits fits
    rcases starts with ⟨restarted, started⟩
    have launched := launched_of_starts started
    refine ⟨restarted, started, ?_, ?_, ?_⟩
    · rw [launched.clients (by rw [clients]; exact edges.apart), clients]
    · rw [launched.rest]
      rfl
    · have settings := (settings_loadedConfig_eq_iff faithful).mpr
        ⟨(port_loadedConfig_eq_iff faithful).mpr recorded.port,
          (captureBackend_loadedConfig_eq_iff faithful).mpr recorded.captureBackend,
          (emulationBackend_loadedConfig_eq_iff faithful).mpr recorded.emulationBackend⟩
      rw [← settings, launched.rest]
      rfl

theorem clientList_savedConfig (launched : Launched host config service) :
    service.savedConfig.document.clientList = service.configClients.map .ofConfig := by
  have idle := launched.idle
  rw [ConfigToml.clientList, clients_savedConfig]
  split
  · rename_i nobody
    rw [nobody, clients, bind_configToml rfl] at idle
    have nothing := map_eq_nil_iff.mp (map_eq_nil_iff.mp idle.symm)
    rw [nobody, launched.rest]
    exact nothing
  · rfl

omit [LinearOrder Ip] in
theorem pairwise_of_forall₂ {α β : Type} {matching : α → β → Prop} {apart : β → β → Prop}
    {holds : α → α → Prop} {list : List α} {others : List β}
    (matched : Forall₂ matching list others)
    (carried : ∀ first second one two, matching first one → matching second two →
      apart one two → holds first second)
    (pairwise : others.Pairwise apart) : list.Pairwise holds := by
  induction matched with
  | nil => exact .nil
  | @cons first one list others here rest ih =>
    rcases pairwise_cons.mp pairwise with ⟨away, pairwise⟩
    refine pairwise_cons.mpr ⟨fun _ member => ?_, ih pairwise⟩
    rcases mem_iff_getElem.mp member with ⟨index, inside, rfl⟩
    have there : index < others.length := by
      rw [← rest.length_eq]
      exact inside
    exact carried _ _ _ _ here (rest.get inside there) (away _ (getElem_mem there))

variable {client : TomlClient Ip}

theorem keeps_ofConfig_ofToml
    (legacy : ∀ name, client.legacyHostName = some name → client.hostname = some name) :
    client.Keeps (.ofConfig (.ofToml client)) := by
  refine ⟨fun _ named => named, fun name named => .inr (legacy name named), fun _ given => ?_,
    fun _ given => ?_, fun _ given => ?_, fun active given => ?_, fun _ set => set,
    fun _ known => known⟩
  · refine ⟨_, rfl, ?_⟩
    simp [ofToml, sortedIps, given]
  · simp only [ofConfig, ofToml, given, getD_some]
    split
    · rfl
    · rename_i same
      exact (not_not.mp same).symm
  · simp [ofConfig, ofToml, given]
  · cases active <;> simp [ofConfig, ofToml, given]

theorem active_of_keeps {configured : ConfigClient Ip}
    (keeps : client.Keeps (.ofConfig configured)) (active : (ofToml client).active = true) :
    configured.active = true := by
  cases given : client.activateOnStartup with
  | none => simp [ofToml, given] at active
  | some wanted =>
    have kept := keeps.activateOnStartup wanted given
    simp only [ofToml, given, getD_some] at active
    rw [active] at kept
    cases on : configured.active with
    | false => simp [ofConfig, on] at kept
    | true => rfl

theorem keeps_iff (edges : service.Edges) (launched : Launched host config service) :
    Forall₂ Keeps config.document.clientList
      service.savedConfig.document.clientList ↔ config.document.Clean := by
  have clients : config.clients = config.document.clientList.map .ofToml := by
    rw [clients, bind_configToml rfl]
    rfl
  rw [clientList_savedConfig launched]
  constructor
  · intro kept
    have idle := launched.idle.symm
    rw [clients, List.map_map, ← List.forall₂_eq_eq_eq, List.forall₂_map_right_iff,
      forall₂_map_left_iff] at idle
    rw [forall₂_map_right_iff] at kept
    have both := kept.mp (fun _ _ keeps idle => And.intro keeps idle) idle
    refine ⟨fun client member name named => ?_, ?_⟩
    · rcases mem_iff_getElem.mp member with ⟨index, inside, rfl⟩
      have there : index < service.configClients.length := by
        rw [← both.length_eq]
        exact inside
      rcases both.get inside there with ⟨keeps, idle⟩
      have hostname := (keeps.legacyHostName name named).resolve_left (some_ne_none name).symm
      exact (congrArg ConfigClient.hostname idle).trans hostname
    · rw [pairwise_map]
      refine pairwise_of_forall₂ both (fun _ _ _ _ here there apart => ?_) edges.apart
      intro active activeToo
      have positions := apart (active_of_keeps here.1 active) (active_of_keeps there.1 activeToo)
      have pos := congrArg pos here.2
      have other := congrArg ConfigClient.pos there.2
      exact fun same => positions (pos.symm.trans (same.trans other))
  · intro clean
    rw [launched.clients (by rw [clients]; exact clean.apart), clients, List.map_map,
      forall₂_map_right_iff, forall₂_same]
    exact fun client member => keeps_ofConfig_ofToml (clean.legacyHostName client member)

/-- In every state of a service whose file is only changed by itself, the service starts again with
the same clients, keys and settings just if it is recorded; the clients of the file it was started
with are saved as they were loaded just if the file is clean. -/
theorem survives_of_run {history : List (Service Ip)} (started : Starts host config service)
    (run : Run (serving host service) history) :
    (∀ state ∈ history, (∃ restarted, Survives host config.overrides state restarted) ↔
        Recorded config.overrides state) ∧
      (List.Forall₂ TomlClient.Keeps config.document.clientList
        service.savedConfig.document.clientList ↔ config.document.Clean) := by
  have launched := launched_of_starts started
  have kept : ∀ state ∈ history, state.Edges ∧ state.Faithful host config.overrides := by
    refine run.invariant ⟨⟨edges_of_starts started, faithful_of_launched launched⟩, ?_⟩
    rintro state input ⟨edges, faithful⟩ ⟨handled, byItself⟩
    have keepsEdges : KeepsEdges (Handler.handle host input) := keepsEdges_handle input
    have keepsFaithful : KeepsFaithful host config.overrides (Handler.handle host input) :=
      keepsFaithful_handle byItself
    have keepsBoth := (keepsEdges state edges).and (keepsFaithful state faithful)
    unfold StateMachine.Handler.Ensures at keepsBoth
    change ((Handler.handle host input state).2).Edges ∧
      ((Handler.handle host input state).2).Faithful host config.overrides
    rcases ended : Handler.handle host input state with ⟨_ | _, _⟩
    · rw [ended] at handled
      cases handled
    · rw [ended] at keepsBoth
      exact keepsBoth
  refine ⟨fun state member => ?_, keeps_iff (edges_of_starts started) launched⟩
  exact survives_iff (kept state member).1 (kept state member).2

end Service

namespace Sample

theorem serves_of_isOk {state : Service ℕ} {input : ServiceInput ℕ} (byItself : input.IsRequest)
    (fine : (Handler.handle host input state).1.isOk = true) :
    (serving host service).enabled state input :=
  ⟨enabled_of_isOk fine, byItself⟩

def deleted : Service ℕ := (Handler.handle host (.request (.delete 0)) service).2

def keyed : Service ℕ := (Handler.handle host (.request (.authorizeKey "laptop" "fp")) service).2

theorem run_deleted : Run (serving host service) [deleted, service] := by
  have fine : (Handler.handle host (.request (.delete 0)) service).1.isOk = true := by
    decide +kernel
  exact Run.start.onward (.request (.delete 0)) (serves_of_isOk trivial fine) rfl

theorem run_keyed : Run (serving host service) [keyed, service] := by
  have fine : (Handler.handle host (.request (.authorizeKey "laptop" "fp")) service).1.isOk =
      true := by
    decide +kernel
  exact Run.start.onward (.request (.authorizeKey "laptop" "fp")) (serves_of_isOk trivial fine) rfl

end Sample

/-- The only client is deleted. -/
theorem not_survives_deleted :
    ¬∀ (config : Config ℕ) (service : Service ℕ) (history : List (Service ℕ)),
      Starts Sample.host config service → Run (serving Sample.host service) history →
        ∀ state ∈ history, ∃ restarted, Survives Sample.host config.overrides state restarted := by
  intro survives
  rcases survives Sample.config Sample.service _ Sample.started Sample.run_deleted Sample.deleted
    (.head _) with ⟨restarted, again, clients, -, -⟩
  have back : (Handler.launch Sample.host (Sample.deleted.loadedConfig
      Sample.config.overrides).clients (.new Sample.host (Sample.deleted.loadedConfig
        Sample.config.overrides))).2.configClients.length = 1 := by decide +kernel
  have gone : Sample.deleted.configClients.length = 0 := by decide +kernel
  rw [again, clients, gone] at back
  cases back

open Sample in
/-- Another key is authorized. -/
theorem Service.survives_of_run_keyed :
    ∃ restarted, Survives Sample.host Sample.config.overrides keyed restarted := by
  refine ((survives_of_run Sample.started run_keyed).1 keyed (.head _)).mpr
    ⟨.inl ?_, nofun, nofun, nofun⟩
  intro nobody
  have there : keyed.configClients.length = 1 := by decide +kernel
  rw [nobody] at there
  cases there

end Syntra.Clients
