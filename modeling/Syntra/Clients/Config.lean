import Syntra.Clients.Manager

/-!
# The configuration

The configuration file as a document (`config.rs`), what the service reads from it and what it
changes in it. A document that is written and read again is the same one. Backends are called by
their names, which are those of the platform.
-/

namespace Syntra.Clients

open Files (PathBuf)
open Proto (Position)
open Tables

/-- A `[[clients]]` table of the file. -/
structure TomlClient (Ip : Type) where
  hostname : Option String
  /-- A legacy spelling. -/
  legacyHostName : Option String
  ips : Option (List Ip)
  port : Option UInt16
  position : Option Position
  activateOnStartup : Option Bool
  enterHook : Option String
  peerFingerprint : Option String

/-- The `[file_receive]` table of the file. -/
structure FileReceiveToml where
  autoAccept : Option Bool
  downloadDirectory : Option PathBuf

/-- The configuration file as it is parsed. -/
structure ConfigToml (Ip : Type) where
  captureBackend : Option String
  emulationBackend : Option String
  port : Option UInt16
  releaseBind : Option (List UInt32)
  clipboardText : Option Bool
  clipboardImage : Option Bool
  clipboardFiles : Option Bool
  independentPointers : Option Bool
  hopBypass : Option Bool
  multiHop : Option Bool
  edgePressure : Option UInt32
  clients : Option (List (TomlClient Ip))
  authorizedFingerprints : Option (Table String String)
  fileReceive : Option FileReceiveToml

def ConfigToml.default (Ip : Type) : ConfigToml Ip where
  captureBackend := none
  emulationBackend := none
  port := none
  releaseBind := none
  clipboardText := none
  clipboardImage := none
  clipboardFiles := none
  independentPointers := none
  hopBypass := none
  multiHop := none
  edgePressure := none
  clients := none
  authorizedFingerprints := none
  fileReceive := none

/-- What takes precedence over the file for one run. -/
structure ConfigOverrides where
  port : Option UInt16
  captureBackend : Option String
  emulationBackend : Option String

/-- Which contents are shared. -/
structure ClipboardSettings where
  text : Bool
  image : Bool
  files : Bool
  deriving DecidableEq

/-- How the files of peers are received. -/
structure FileReceiveSettings where
  autoAccept : Bool
  downloadDirectory : PathBuf
  deriving DecidableEq

/-- Everything that the service reads from the configuration besides clients and keys. -/
structure Settings where
  port : UInt16
  clipboard : ClipboardSettings
  fileReceive : FileReceiveSettings
  captureBackend : Option String
  emulationBackend : Option String
  independentPointers : Bool
  hopBypass : Bool
  multiHop : Bool
  edgePressure : UInt32
  releaseBind : List UInt32
  deriving DecidableEq

/-- The document and the arguments of the command line, which go before it. -/
structure Config (Ip : Type) where
  overrides : ConfigOverrides
  /-- The document, if the file could be read. -/
  configToml : Option (ConfigToml Ip)

section Clients

variable {Ip : Type} [LinearOrder Ip]

/-- The legacy spelling of the name is read over. -/
def ConfigClient.ofToml (toml : TomlClient Ip) : ConfigClient Ip where
  ips := (toml.ips.getD []).toFinset
  hostname := toml.hostname
  port := toml.port.getD defaultPort
  pos := toml.position.getD .left
  active := toml.activateOnStartup.getD false
  enterHook := toml.enterHook
  peerFingerprint := toml.peerFingerprint

def TomlClient.ofConfig (client : ConfigClient Ip) : TomlClient Ip where
  hostname := client.hostname
  legacyHostName := none
  ips := some client.sortedIps
  port := if client.port ≠ defaultPort then some client.port else none
  position := some client.pos
  activateOnStartup := if client.active then some true else none
  enterHook := client.enterHook
  peerFingerprint := client.peerFingerprint

theorem ConfigClient.ofToml_ofConfig (client : ConfigClient Ip) :
    ofToml (.ofConfig client) = client := by
  rcases client with ⟨_, _, _, _, active, _, _⟩
  simp only [ofToml, TomlClient.ofConfig, sortedIps, Option.getD_some, Finset.sort_toFinset]
  congr
  · split
    · rfl
    · rename_i same
      exact (not_not.mp same).symm
  · cases active <;> rfl

end Clients

namespace Config

variable {Ip : Type}

variable (config : Config Ip)

/-- The document, which a setter makes if there is none. -/
def document : ConfigToml Ip := config.configToml.getD (.default Ip)

def edit (change : ConfigToml Ip → ConfigToml Ip) : Config Ip :=
  { config with configToml := some (change config.document) }

def authorizedFingerprints : Table String String :=
  (config.configToml.bind (·.authorizedFingerprints)).getD ∅

def clients [LinearOrder Ip] : List (ConfigClient Ip) :=
  ((config.configToml.bind (·.clients)).getD []).map .ofToml

def port : UInt16 :=
  (config.overrides.port.or (config.configToml.bind (·.port))).getD defaultPort

def captureBackend : Option String :=
  config.overrides.captureBackend.or (config.configToml.bind (·.captureBackend))

def emulationBackend : Option String :=
  config.overrides.emulationBackend.or (config.configToml.bind (·.emulationBackend))

def clipboardSettings : ClipboardSettings where
  text := (config.configToml.bind (·.clipboardText)).getD true
  image := (config.configToml.bind (·.clipboardImage)).getD true
  files := (config.configToml.bind (·.clipboardFiles)).getD true

/-- A directory that is not absolute is not used; `downloads` is the one of the user. -/
def fileReceiveSettings (downloads : PathBuf) (config : Config Ip) : FileReceiveSettings :=
  let stored := config.configToml.bind (·.fileReceive)
  { autoAccept := (stored.bind (·.autoAccept)).getD false
    downloadDirectory :=
      ((stored.bind (·.downloadDirectory)).filter (·.isAbsolute)).getD downloads }

def independentPointers : Bool :=
  (config.configToml.bind (·.independentPointers)).getD false

def hopBypass : Bool := (config.configToml.bind (·.hopBypass)).getD false

def multiHop : Bool := (config.configToml.bind (·.multiHop)).getD true

def edgePressure : UInt32 :=
  (config.configToml.bind (·.edgePressure)).getD 80

/-- The keys that give control back are Control, Shift, Super and Alt on the left. -/
def releaseBind : List UInt32 :=
  (config.configToml.bind (·.releaseBind)).getD [29, 42, 125, 56]

def setPort (port : UInt16) : Config Ip :=
  config.edit fun document => { document with port := some port }

def setFileReceiveSettings (settings : FileReceiveSettings) : Config Ip :=
  config.edit fun document =>
    { document with
      fileReceive := some ⟨some settings.autoAccept, some settings.downloadDirectory⟩ }

/-- The document is as before if it cannot be written. -/
def persistFileReceiveSettings (settings : FileReceiveSettings) (writes : Bool) :
    Config Ip × Bool :=
  if writes then (config.setFileReceiveSettings settings, true) else (config, false)

def setCaptureBackend (backend : Option String) : Config Ip :=
  edit { config with overrides := { config.overrides with captureBackend := none } }
    fun document => { document with captureBackend := backend }

def setEmulationBackend (backend : Option String) : Config Ip :=
  edit { config with overrides := { config.overrides with emulationBackend := none } }
    fun document => { document with emulationBackend := backend }

def setMultiHop (enabled : Bool) : Config Ip :=
  config.edit fun document => { document with multiHop := some enabled }

def setHopBypass (enabled : Bool) : Config Ip :=
  config.edit fun document => { document with hopBypass := some enabled }

def setIndependentPointers (enabled : Bool) : Config Ip :=
  config.edit fun document => { document with independentPointers := some enabled }

def setClipboardSettings (settings : ClipboardSettings) : Config Ip :=
  config.edit fun document =>
    { document with
      clipboardText := some settings.text
      clipboardImage := some settings.image
      clipboardFiles := some settings.files }

def setClients [LinearOrder Ip] (clients : List (ConfigClient Ip)) : Config Ip :=
  if clients.isEmpty then config
  else config.edit fun document => { document with clients := some (clients.map .ofConfig) }

def setAuthorizedKeys (fingerprints : Table String String) : Config Ip :=
  config.edit fun document => { document with authorizedFingerprints := some fingerprints }

end Config

end Syntra.Clients
