import Syntra.Plugins.Package

/-!
# What a digest covers

The text that is fed to the hasher is the text of a record of what was approved, `Covered.text`, and
two records with one text are one record: every field carries its length, and every list of fields
ends where a field with another tag begins.
-/

namespace Syntra.Plugins

open ByteFormat StateMachine Feeding PluginManifest Handler List Delimits
open Files (PathBuf)
open Handler (ensures_bind ensures_read)

theorem utf8_injective : Function.Injective utf8 := by
  intro _ _ same
  have read := congrArg fromUtf8? same
  simpa using read

theorem sortTexts_perm (texts : List String) : (sortTexts texts).Perm texts :=
  mergeSort_perm _ _

theorem sortTexts_eq {texts others : List String} (perm : texts.Perm others) :
    sortTexts texts = sortTexts others := by
  have sorted (list : List String) :
      (sortTexts list).Pairwise fun text other => decide (text ≤ other) := by
    apply pairwise_mergeSort
    · intro text _ _ first second
      simp only [decide_eq_true_eq] at first second ⊢
      exact String.le_trans first second
    · simpa using fun text other => String.le_total text other
  refine Perm.eq_of_pairwise ?_ (sorted texts) (sorted others) ?_
  · intro _ _ _ _ first second
    exact String.le_antisymm (by simpa using first) (by simpa using second)
  · exact (sortTexts_perm texts).trans (perm.trans (sortTexts_perm others).symm)

/-- What a digest covers, as it is laid out. -/
@[ext]
structure Covered where
  id : String
  version : String
  protocolVersion : UInt32
  onDemand : Bool
  ownsSettings : Bool
  argv : List String
  flags : Bytes
  mimeTypes : List String
  settings : List Bytes
  handshakeIds : List String
  executable : String × Bytes
  resources : List (String × Bytes)

def textSection (tag text : String) : Bytes := taggedSection (utf8 tag) (utf8 text)

/-- A file: the label has a tag, the content follows with its length. -/
def fileSection (kind : String) (file : String × Bytes) : Bytes :=
  textSection kind file.1 ++ sized file.2

namespace Covered

def resourceText (covered : Covered) : Bytes :=
  fileSection "executable" covered.executable ++ covered.resources.flatMap (fileSection "resource")

def listsText (covered : Covered) : Bytes :=
  covered.mimeTypes.flatMap (textSection "mime") ++
    (covered.settings.flatMap (taggedSection (utf8 "setting")) ++
      (covered.handshakeIds.flatMap (textSection "handshake_id") ++ covered.resourceText))

def text (covered : Covered) : Bytes :=
  textSection "identity" covered.id ++
    (textSection "version" covered.version ++
      (taggedSection (utf8 "protocol") (toLeBytes 4 covered.protocolVersion.toNat) ++
        (taggedSection (utf8 "flags") [flag covered.onDemand, flag covered.ownsSettings] ++
          (covered.argv.flatMap (textSection "arg") ++
            (taggedSection (utf8 "capabilities") covered.flags ++ covered.listsText)))))

/-- Every field has a length of 64 bits. -/
structure Fits (covered : Covered) : Prop where
  id : Sizable (utf8 covered.id)
  version : Sizable (utf8 covered.version)
  argv : ∀ argument ∈ covered.argv, Sizable (utf8 argument)
  flags : Sizable covered.flags
  mimeTypes : ∀ mime ∈ covered.mimeTypes, Sizable (utf8 mime)
  settings : ∀ setting ∈ covered.settings, Sizable setting
  handshakeIds : ∀ handshakeId ∈ covered.handshakeIds, Sizable (utf8 handshakeId)
  executable : Sizable (utf8 covered.executable.1) ∧ Sizable covered.executable.2
  resources : ∀ file ∈ covered.resources, Sizable (utf8 file.1) ∧ Sizable file.2

end Covered

theorem delimits_textSection {tag : String} (fits : Sizable (utf8 tag)) :
    Delimits (fun text => Sizable (utf8 text)) (textSection tag) :=
  (delimits_taggedSection fits).comp utf8 (fun _ sizable => sizable) utf8_injective

theorem delimits_fileSection {kind : String} (fits : Sizable (utf8 kind)) :
    Delimits (fun file : String × Bytes => Sizable (utf8 file.1) ∧ Sizable file.2)
      (fileSection kind) :=
  (delimits_textSection fits).prod delimits_sized

theorem opens_textSection (tag text : String) (more : Bytes) :
    Opens (utf8 tag) (textSection tag text ++ more) :=
  opens_taggedSection (utf8 tag) (utf8 text) more

theorem opens_fileSection (kind : String) (file : String × Bytes) (more : Bytes) :
    Opens (utf8 kind) (fileSection kind file ++ more) := by
  rw [fileSection, append_assoc]
  exact opens_textSection kind file.1 (sized file.2 ++ more)

namespace Covered

variable {covered first second : Covered}

theorem headed_resourceText : Headed [utf8 "executable"] covered.resourceText :=
  .of_opens (opens_fileSection "executable" covered.executable _) (by simp)

theorem headed_handshakeIds : Headed [utf8 "handshake_id", utf8 "executable"]
    (covered.handshakeIds.flatMap (textSection "handshake_id") ++ covered.resourceText) := by
  refine Headed.flatMap _ ?_ (opens_textSection "handshake_id") (by simp)
  exact .of_opens (opens_fileSection "executable" covered.executable _) (by simp)

theorem headed_settings : Headed [utf8 "setting", utf8 "handshake_id", utf8 "executable"]
    (covered.settings.flatMap (taggedSection (utf8 "setting")) ++
      (covered.handshakeIds.flatMap (textSection "handshake_id") ++ covered.resourceText)) := by
  refine Headed.flatMap _ ?_ (opens_taggedSection (utf8 "setting")) (by simp)
  refine Headed.flatMap _ ?_ (opens_textSection "handshake_id") (by simp)
  exact .of_opens (opens_fileSection "executable" covered.executable _) (by simp)

theorem resourceText_inj (fits : first.Fits) (otherFits : second.Fits)
    (same : first.resourceText = second.resourceText) :
    first.executable = second.executable ∧ first.resources = second.resources := by
  obtain ⟨executable, later⟩ :=
    delimits_fileSection (by decide) fits.executable otherFits.executable same
  refine ⟨executable, ?_⟩
  have ended : Headed [] ([] : Bytes) := .inl rfl
  refine (fields (delimits_fileSection (by decide)) (opens_fileSection "resource")
    (by decide) (by simp) (by simp) fits.resources otherFits.resources ended ended ?_).1
  simpa using later

theorem listsText_inj (fits : first.Fits) (otherFits : second.Fits)
    (same : first.listsText = second.listsText) :
    first.mimeTypes = second.mimeTypes ∧ first.settings = second.settings ∧
      first.handshakeIds = second.handshakeIds ∧ first.resourceText = second.resourceText := by
  obtain ⟨mimeTypes, afterMime⟩ := fields (delimits_textSection (by decide))
    (opens_textSection "mime") (by decide) (by decide) (by decide) fits.mimeTypes
    otherFits.mimeTypes headed_settings headed_settings same
  obtain ⟨settings, afterSettings⟩ := fields (delimits_taggedSection (by decide))
    (opens_taggedSection (utf8 "setting")) (by decide) (by decide) (by decide) fits.settings
    otherFits.settings headed_handshakeIds headed_handshakeIds afterMime
  obtain ⟨handshakeIds, afterIds⟩ := fields (delimits_textSection (by decide))
    (opens_textSection "handshake_id") (by decide) (by decide) (by decide) fits.handshakeIds
    otherFits.handshakeIds headed_resourceText headed_resourceText afterSettings
  exact ⟨mimeTypes, settings, handshakeIds, afterIds⟩

theorem flag_inj {value other : Bool} (same : flag value = flag other) : value = other := by
  cases value <;> cases other <;> first | rfl | exact absurd same (by decide)

theorem headed_capabilities {more : Bytes} : Headed [utf8 "capabilities"]
    (taggedSection (utf8 "capabilities") covered.flags ++ more) :=
  .of_opens (opens_taggedSection (utf8 "capabilities") covered.flags more) (by simp)

theorem text_inj (fits : first.Fits) (otherFits : second.Fits) (same : first.text = second.text) :
    first = second := by
  obtain ⟨id, afterId⟩ := delimits_textSection (by decide) fits.id otherFits.id same
  obtain ⟨version, afterVersion⟩ :=
    delimits_textSection (by decide) fits.version otherFits.version afterId
  obtain ⟨protocol, afterProtocol⟩ :=
    delimits_taggedSection (by decide) (by simp [Sizable]) (by simp [Sizable]) afterVersion
  obtain ⟨flags, afterFlags⟩ :=
    delimits_taggedSection (by decide) (by simp [Sizable]) (by simp [Sizable]) afterProtocol
  obtain ⟨argv, afterArgv⟩ := fields (delimits_textSection (by decide))
    (opens_textSection "arg") (by decide) (by decide) (by decide) fits.argv otherFits.argv
    headed_capabilities headed_capabilities afterFlags
  obtain ⟨capabilities, afterCapabilities⟩ :=
    delimits_taggedSection (by decide) fits.flags otherFits.flags afterArgv
  obtain ⟨mimeTypes, settings, handshakeIds, files⟩ :=
    listsText_inj fits otherFits afterCapabilities
  obtain ⟨executable, resources⟩ := resourceText_inj fits otherFits files
  have spoken : first.protocolVersion = second.protocolVersion :=
    UInt32.toNat_inj.mp (toLeBytes_inj first.protocolVersion.toNat_lt
      second.protocolVersion.toNat_lt protocol)
  simp only [cons.injEq, and_true] at flags
  exact Covered.ext id version spoken (flag_inj flags.1) (flag_inj flags.2) argv capabilities
    mimeTypes settings handshakeIds executable resources

end Covered

namespace HashedFile

def entry (file : HashedFile) : String × Bytes := (file.label, file.content)

def Fits (file : HashedFile) : Prop := Sizable (utf8 file.label) ∧ Sizable file.content

end HashedFile

namespace Feeding

def Adds (feeding : Feeding Unit) (text : Bytes) : Prop :=
  ∀ fed, feeding.Ensures fed (fun _ after => after = { fed with stream := fed.stream ++ text })
    fun _ _ => False

def Hashes (kind : String) (before after : Fed) : Prop :=
  ∃ files : List HashedFile, (∀ file ∈ files, file.Fits) ∧
    after.stream = before.stream ++ (files.map HashedFile.entry).flatMap (fileSection kind) ∧
    after.hashed = before.hashed ++ files

theorem adds_update (bytes : Bytes) : (update bytes).Adds bytes := fun _ => rfl

theorem Adds.bind {feeding next : Feeding Unit} {text later : Bytes} (adds : feeding.Adds text)
    (further : next.Adds later) : Adds (feeding >>= fun _ => next) (text ++ later) := by
  intro fed
  refine ensures_bind.mpr ((adds fed).mono ?_ fun _ _ => id)
  rintro _ _ rfl
  refine (further _).mono ?_ fun _ _ => id
  rintro _ _ rfl
  simp

theorem Adds.each {α : Type} {list : List α} {body : α → Feeding Unit} {code : α → Bytes}
    (adds : ∀ element, (body element).Adds (code element)) :
    Adds (Handler.each list body) (list.flatMap code) := by
  induction list with
  | nil =>
    intro _
    simp [Handler.each]
  | cons element _ ih => exact (adds element).bind ih

theorem adds_feedSection (tag : String) (bytes : Bytes) :
    (feedSection tag bytes).Adds (taggedSection (utf8 tag) bytes) := by
  have pieces := (adds_update (toLeBytes 8 (utf8 tag).length)).bind
    ((adds_update (utf8 tag)).bind ((adds_update (toLeBytes 8 bytes.length)).bind
      (adds_update bytes)))
  simpa [feedSection, taggedSection, sized, append_assoc] using pieces

section

variable {fed : Fed} {stopped : Interruption → Fed → Prop}

variable {post : Unit → Fed → Prop} {α : Type} {kind : String}

@[simp]
theorem ensures_require {condition : Prop} [Decidable condition] {error : PackageError} :
    (require condition error).Ensures fed post stopped ↔
      (condition → post () fed) ∧ (¬condition → stopped (.refused error) fed) := by
  rw [require, ensures_ite]
  rfl

@[simp]
theorem ensures_answered {path : String} {answer : Except Files.IoError α} {post : α → Fed → Prop} :
    (answered path answer).Ensures fed post stopped ↔
      (∀ value, answer = .ok value → post value fed) ∧
        ∀ source, answer = .error source → stopped (.refused (.io path source)) fed := by
  cases answer with
  | ok value =>
    have ends : (answered path (.ok value)).Ensures fed post stopped ↔ post value fed := Iff.rfl
    simp [ends]
  | error source =>
    have stops :
        (answered path (.error source : Except Files.IoError α)).Ensures fed post stopped ↔
          stopped (.refused (.io path source)) fed := Iff.rfl
    simp [stops]

theorem Adds.ensures {feeding : Feeding Unit} {text : Bytes} (adds : feeding.Adds text)
    (ends : post () { fed with stream := fed.stream ++ text }) :
    feeding.Ensures fed post stopped := by
  refine (adds fed).mono ?_ fun _ _ => False.elim
  rintro _ _ rfl
  exact ends

theorem hashContent_ensures (file : OpenFile) (label : String) (offset remaining : ℕ) (fed : Fed) :
    (hashContent file label offset remaining).Ensures fed
      (fun content after => content.length = remaining ∧
        after = { fed with stream := fed.stream ++ content }) fun _ _ => True := by
  induction remaining using Nat.strong_induction_on generalizing offset fed with
  | _ remaining ih =>
    rw [hashContent]
    split
    · rename_i more
      cases answer : file.read offset (min readBuffer remaining) with
      | error => exact trivial
      | ok bytes =>
        have bounded := file.bounded _ _ _ answer
        dsimp only
        split
        · exact trivial
        · rename_i filled
          rw [ensures_bind]
          refine (adds_update bytes).ensures (ensures_bind.mpr ?_)
          refine (ih (remaining - bytes.length) (by omega) _ _).mono ?_ fun _ _ => id
          rintro _ _ ⟨_, rfl⟩
          refine ⟨?_, by simp⟩
          rw [length_append]
          omega
    · rename_i ended
      exact ⟨by simp; omega, by simp⟩

variable (system : FileSystem)

theorem hashFile_ensures (kind : String) (path : PathBuf) (label : String) (fed : Fed) :
    (hashFile system kind path label).Ensures fed (fun _ after => ∃ content, Sizable content ∧
        after = ⟨fed.stream ++ fileSection kind (label, content),
          fed.hashed ++ [⟨path, label, content⟩]⟩) fun _ _ => True := by
  simp only [hashFile, ensures_bind, ensures_read, ensures_require,
    ensures_answered, implies_true, and_true]
  intro _ _ _ _ file _ _ _ _ _ small
  refine (adds_feedSection kind (utf8 label)).ensures ?_
  refine (adds_update _).ensures ?_
  refine (hashContent_ensures file label 0 _ _).mono ?_ fun _ _ => id
  rintro content _ ⟨length, rfl⟩ _ _ _ _ _ _
  refine ⟨content, ?_, ?_⟩
  · rw [Sizable, length]
    exact small.trans_lt (by decide)
  · simp [fileSection, textSection, sized, length]

theorem sizable_of_held {bytes : Bytes} (held : bytes.length ≤ maxCapacity) : Sizable bytes :=
  held.trans_lt (by decide)

theorem Hashes.refl (kind : String) (fed : Fed) : Hashes kind fed fed :=
  ⟨[], by simp, by simp, by simp⟩

theorem Hashes.trans {before between after : Fed} (first : Hashes kind before between)
    (second : Hashes kind between after) : Hashes kind before after := by
  obtain ⟨files, fit, stream, hashed⟩ := first
  obtain ⟨others, othersFit, laterStream, laterHashed⟩ := second
  refine ⟨files ++ others, ?_, ?_, ?_⟩
  · exact fun file member => (mem_append.mp member).elim (fit file) (othersFit file)
  · rw [laterStream, stream, map_append, flatMap_append, append_assoc]
  · rw [laterHashed, hashed, append_assoc]

theorem Hashes.each {list : List α} {body : α → Feeding Unit} (turn : ∀ element ∈ list, ∀ state,
      (body element).Ensures state (fun _ after => Hashes kind state after) fun _ _ => True) :
    (each list body).Ensures fed (fun _ after => Hashes kind fed after) fun _ _ => True := by
  refine Ensures.each (Hashes kind fed) (Hashes.refl kind fed) ?_
  intro element member state reached
  exact (turn element member state).mono (fun _ _ further => reached.trans further)
    fun _ _ => id

theorem hashFile_hashes (kind : String) (path : PathBuf) {label : String}
    (fits : Sizable (utf8 label)) :
    (hashFile system kind path label).Ensures fed (fun _ after => Hashes kind fed after)
      fun _ _ => True := by
  refine (hashFile_ensures system kind path label fed).mono ?_ fun _ _ => id
  rintro _ _ ⟨content, sizable, rfl⟩
  refine ⟨[⟨path, label, content⟩], ?_, by simp [HashedFile.entry], rfl⟩
  rintro _ member
  rw [mem_singleton.mp member]
  exact ⟨fits, sizable⟩

theorem childLabel_ensures (label name : String) :
    (childLabel label name).Ensures fed
      (fun child after => Sizable (utf8 child) ∧ after = fed) fun _ _ => True := by
  rw [childLabel]
  split
  · rename_i held
    exact ⟨sizable_of_held held, rfl⟩
  · exact trivial

theorem walk_hashes (root : PathBuf) {levels : ℕ} :
    ∀ {label : String} {path : PathBuf} {fed : Fed}, Sizable (utf8 label) →
      (walk system root label path levels).Ensures fed (fun _ after => Hashes "resource" fed after)
        fun _ _ => True := by
  induction levels with
  | zero => exact fun _ => trivial
  | succ _ ih =>
    intro label path _ fits
    simp only [walk, ensures_bind, ensures_answered, implies_true, and_true]
    intro _ _
    split
    · simp only [ensures_bind, ensures_answered, implies_true, and_true]
      intro _ _
      refine Hashes.each fun name _ _ => ?_
      simp only [ensures_bind]
      refine (childLabel_ensures label name).mono ?_ fun _ _ => id
      rintro _ _ ⟨childFits, rfl⟩
      simp only [ensures_answered, ensures_require, implies_true, and_true]
      exact fun _ _ _ => ih childFits
    · exact hashFile_hashes system "resource" path fits

end

end Feeding

section

variable {json : SettingJson} {package : Package}

theorem Package.sizable {text : String}
    (listed : text ∈ package.executable :: package.manifest.texts) :
    Sizable (utf8 text) :=
  sizable_of_held (package.held text listed)

variable {fed : Fed} {executable : Bytes} {resources : List HashedFile}
  {stopped : Interruption → Fed → Prop}

theorem feedResources_hashes :
    (feedResources package).Ensures fed (fun _ after => Hashes "resource" fed after)
      fun _ _ => True := by
  simp only [feedResources, ensures_bind, ensures_answered, implies_true, and_true]
  intro rootReal _
  refine Hashes.each fun _ listed _ => ?_
  simp only [ensures_bind, ensures_answered, ensures_require, implies_true, and_true]
  intro _ _ _
  refine walk_hashes package.system rootReal (package.sizable ?_)
  simp [texts, listed]

/-- The record that a digest of the package covers, when these files were hashed. -/
def Package.covered (json : SettingJson) (package : Package) (executable : Bytes)
    (resources : List HashedFile) : Covered where
  id := package.manifest.id
  version := package.manifest.version
  protocolVersion := package.manifest.protocolVersion
  onDemand := package.manifest.onDemand
  ownsSettings := package.manifest.ownsSettings
  argv := package.manifest.argv
  flags := package.manifest.capabilities.flags
  mimeTypes := sortTexts package.manifest.capabilities.mimeTypes
  settings := package.manifest.settings.map json.text
  handshakeIds := package.manifest.handshakeIds
  executable := (package.executable, executable)
  resources := resources.map HashedFile.entry

def manifestText (json : SettingJson) (manifest : PluginManifest) : Bytes :=
  textSection "identity" manifest.id ++
    (textSection "version" manifest.version ++
      (taggedSection (utf8 "protocol") (toLeBytes 4 manifest.protocolVersion.toNat) ++
        (taggedSection (utf8 "flags") [flag manifest.onDemand, flag manifest.ownsSettings] ++
          (manifest.argv.flatMap (textSection "arg") ++
            (taggedSection (utf8 "capabilities") manifest.capabilities.flags ++
              ((sortTexts manifest.capabilities.mimeTypes).flatMap (textSection "mime") ++
                (manifest.settings.flatMap
                    (fun setting => taggedSection (utf8 "setting") (json.text setting)) ++
                  manifest.handshakeIds.flatMap (textSection "handshake_id"))))))))

theorem adds_feedManifest (manifest : PluginManifest) :
    (feedManifest json manifest).Adds (manifestText json manifest) := by
  have section' (tag : String) (bytes : Bytes) := adds_feedSection tag bytes
  refine (section' _ _).bind ((section' _ _).bind ((section' _ _).bind ((section' _ _).bind ?_)))
  refine (Adds.each fun _ => section' _ _).bind ((section' _ _).bind ?_)
  refine (Adds.each fun _ => section' _ _).bind ?_
  exact (Adds.each fun _ => section' _ _).bind (Adds.each fun _ => section' _ _)

theorem Package.covered_text :
    (package.covered json executable resources).text = manifestText json package.manifest ++
        fileSection "executable" (package.executable, executable) ++
        (resources.map HashedFile.entry).flatMap (fileSection "resource") := by
  simp [Covered.text, Covered.listsText, Covered.resourceText, Package.covered, manifestText,
    flatMap_map]

theorem Package.covered_fits (executableFits : Sizable executable)
    (resourcesFit : ∀ file ∈ resources, file.Fits) :
    (package.covered json executable resources).Fits where
  id := package.sizable (by simp [covered, texts])
  version := package.sizable (by simp [covered, texts])
  argv := fun _ listed => package.sizable (by
    simp only [covered] at listed
    simp [texts, listed])
  flags := by
    change Sizable package.manifest.capabilities.flags
    simp [Capabilities.flags, Sizable]
  mimeTypes := fun _ listed => package.sizable (by
    simp only [covered, (sortTexts_perm _).mem_iff] at listed
    simp [texts, listed])
  settings := by
    intro text listed
    obtain ⟨setting, -, rfl⟩ := mem_map.mp listed
    rw [SettingJson.text]
    cases written : json.toVec setting with
    | none => simp [Sizable]
    | some text => exact sizable_of_held (json.held setting text written)
  handshakeIds := fun _ listed => package.sizable (by
    simp only [covered] at listed
    simp [texts, listed])
  executable := ⟨package.sizable (by simp [covered]), executableFits⟩
  resources := by
    intro _ listed
    obtain ⟨hashed, member, rfl⟩ := mem_map.mp listed
    exact resourcesFit hashed member

theorem feedPackage_ensures :
    (feedPackage json package).Ensures ⟨[], []⟩
      (fun _ fed => ∃ executable resources, (package.covered json executable resources).Fits ∧
        fed.stream = (package.covered json executable resources).text ∧
        fed.hashed = ⟨.ofText package.executable, package.executable, executable⟩ :: resources)
      fun _ _ => True := by
  simp only [feedPackage, ensures_bind]
  refine (adds_feedManifest package.manifest).ensures ?_
  refine (hashFile_ensures package.system "executable" (.ofText package.executable)
    package.executable _).mono ?_ fun _ _ => id
  rintro _ _ ⟨executable, fits, rfl⟩
  refine feedResources_hashes.mono ?_ fun _ _ => id
  rintro _ _ ⟨resources, resourcesFit, stream, hashed⟩
  refine ⟨executable, resources, Package.covered_fits fits resourcesFit, ?_, ?_⟩
  · rw [stream, Package.covered_text]
    simp
  · simpa using hashed

/-- The digests were fed the same, up to the order of the MIME types. -/
structure Alike (first second : Package) (fed otherFed : Fed) : Prop where
  id : first.manifest.id = second.manifest.id
  version : first.manifest.version = second.manifest.version
  protocolVersion : first.manifest.protocolVersion = second.manifest.protocolVersion
  onDemand : first.manifest.onDemand = second.manifest.onDemand
  ownsSettings : first.manifest.ownsSettings = second.manifest.ownsSettings
  argv : first.manifest.argv = second.manifest.argv
  capabilities : ∃ mimeTypes, first.manifest.capabilities.mimeTypes.Perm mimeTypes ∧
    second.manifest.capabilities = { first.manifest.capabilities with mimeTypes := mimeTypes }
  settings : first.manifest.settings = second.manifest.settings
  handshakeIds : first.manifest.handshakeIds = second.manifest.handshakeIds
  /-- The executable comes first, under its path; the files of the resources follow. -/
  files : fed.hashed.map HashedFile.entry = otherFed.hashed.map HashedFile.entry
  executable : first.executable = second.executable ∧
    ∃ content, (fed.hashed.map HashedFile.entry).head? = some (first.executable, content)

theorem flags_inj {capabilities other : Capabilities} (same : capabilities.flags = other.flags) :
    other = { capabilities with mimeTypes := other.mimeTypes } := by
  simp only [Capabilities.flags, cons.injEq, and_true] at same
  obtain ⟨clipboardRead, paste, cancel, mount, pointer⟩ := same
  rw [Covered.flag_inj clipboardRead, Covered.flag_inj paste, Covered.flag_inj cancel,
    Covered.flag_inj mount, Covered.flag_inj pointer]

theorem map_inj_on {α β : Type} {view : α → β} {list others : List α}
    (apart : Set.InjOn view {element | element ∈ list ∨ element ∈ others})
    (same : list.map view = others.map view) : list = others := by
  refine ext_getElem (by simpa using congrArg length same) ?_
  intro index within otherWithin
  refine apart (.inl (getElem_mem within)) (.inr (getElem_mem otherWithin)) ?_
  have entries := congrArg (fun entries => entries[index]?) same
  simpa [getElem?_eq_getElem, within, otherWithin] using entries

theorem feedPackage_eq (feeds : feedPackage json package ⟨[], []⟩ = (.ok (), fed)) :
    ∃ executable resources, (package.covered json executable resources).Fits ∧
      fed.stream = (package.covered json executable resources).text ∧
      fed.hashed = ⟨.ofText package.executable, package.executable, executable⟩ :: resources := by
  have ensures := @feedPackage_ensures json package
  rwa [Ensures, feeds] at ensures

/-- Two packages whose digests cover the same record are alike in all that is approved. -/
theorem Alike.of_covered {json : SettingJson} {first second : Package} {fed otherFed : Fed}
    {content otherContent : Bytes} {resources otherResources : List HashedFile}
    (encodes : Set.InjOn json.text
      {setting | setting ∈ first.manifest.settings ∨ setting ∈ second.manifest.settings})
    (covered : first.covered json content resources =
      second.covered json otherContent otherResources)
    (hashed : fed.hashed = ⟨.ofText first.executable, first.executable, content⟩ :: resources)
    (otherHashed : otherFed.hashed =
      ⟨.ofText second.executable, second.executable, otherContent⟩ :: otherResources) :
    Alike first second fed otherFed := by
  have executables := congrArg Covered.executable covered
  have entries : resources.map HashedFile.entry = otherResources.map HashedFile.entry :=
    congrArg Covered.resources covered
  have mimeTypes : sortTexts first.manifest.capabilities.mimeTypes =
      sortTexts second.manifest.capabilities.mimeTypes :=
    congrArg Covered.mimeTypes covered
  exact {
    id := congrArg Covered.id covered
    version := congrArg Covered.version covered
    protocolVersion := congrArg Covered.protocolVersion covered
    onDemand := congrArg Covered.onDemand covered
    ownsSettings := congrArg Covered.ownsSettings covered
    argv := congrArg Covered.argv covered
    capabilities := by
      refine ⟨second.manifest.capabilities.mimeTypes, ?_,
        flags_inj (congrArg Covered.flags covered)⟩
      refine (sortTexts_perm _).symm.trans ?_
      rw [mimeTypes]
      exact sortTexts_perm _
    settings := map_inj_on encodes (congrArg Covered.settings covered)
    handshakeIds := congrArg Covered.handshakeIds covered
    files := by
      rw [hashed, otherHashed, List.map_cons, List.map_cons, entries]
      exact congrArg (· :: _) executables
    executable := ⟨congrArg Prod.fst executables, content, by rw [hashed]; rfl⟩ }

theorem covered_eq_of_stream {json : SettingJson} {first second : Package} {fed otherFed : Fed}
    (feeds : feedPackage json first ⟨[], []⟩ = (.ok (), fed))
    (otherFeeds : feedPackage json second ⟨[], []⟩ = (.ok (), otherFed))
    (same : fed.stream = otherFed.stream) :
    ∃ content resources otherContent otherResources,
      first.covered json content resources = second.covered json otherContent otherResources ∧
        fed.hashed = ⟨.ofText first.executable, first.executable, content⟩ :: resources ∧
        otherFed.hashed =
          ⟨.ofText second.executable, second.executable, otherContent⟩ :: otherResources := by
  obtain ⟨content, resources, fits, stream, hashed⟩ := feedPackage_eq feeds
  obtain ⟨otherContent, otherResources, otherFits, otherStream, otherHashed⟩ :=
    feedPackage_eq otherFeeds
  exact ⟨content, resources, otherContent, otherResources,
    Covered.text_inj fits otherFits (by rw [← stream, same, otherStream]), hashed, otherHashed⟩

theorem hexDigit_inj {digit other : ℕ} (small : digit < 16) (otherSmall : other < 16)
    (same : hexDigit digit = hexDigit other) : digit = other := by
  have apart : ∀ digit other : Fin 16, hexDigit digit = hexDigit other → digit = other := by decide
  exact congrArg Fin.val (apart ⟨digit, small⟩ ⟨other, otherSmall⟩ same)

theorem hex_injective : Function.Injective hex := by
  intro bytes others same
  replace same := String.ofList_injective same
  induction bytes generalizing others with
  | nil => cases others <;> simp_all
  | cons byte _ ih =>
    cases others with
    | nil => simp at same
    | cons other _ =>
      simp only [flatMap_cons, cons_append, nil_append, cons.injEq] at same
      rcases same with ⟨high, low, rest⟩
      have bound := byte.toNat_lt
      have otherBound := other.toNat_lt
      have highs := hexDigit_inj (by omega) (by omega) high
      have lows := hexDigit_inj (by omega) (by omega) low
      rw [ih rest, UInt8.toNat_inj.mp (by omega : byte.toNat = other.toNat)]

theorem digestPackage_eq {sha256 : Bytes → Bytes} {digest : PackageDigest}
    (digested : digestPackage sha256 json package = .ok digest) :
    ∃ fed, feedPackage json package ⟨[], []⟩ = (.ok (), fed) ∧
      digest.digest = hex (sha256 fed.stream) ∧
      digest.labels = fed.hashed.map HashedFile.label := by
  unfold digestPackage at digested
  split at digested
  · rename_i fed feeds
    cases digested
    exact ⟨fed, feeds, rfl, rfl⟩
  · cases digested

/-- Two packages of one digest, as far as SHA-256 does not collide on what they feed, are alike in
all that is approved. -/
theorem alike_of_digest {sha256 : Bytes → Bytes} {json : SettingJson} {first second : Package}
    {digest otherDigest : PackageDigest} (encodes : Set.InjOn json.text
      {setting | setting ∈ first.manifest.settings ∨ setting ∈ second.manifest.settings})
    (collides : ∀ fed otherFed, feedPackage json first ⟨[], []⟩ = (.ok (), fed) →
      feedPackage json second ⟨[], []⟩ = (.ok (), otherFed) →
        sha256 fed.stream = sha256 otherFed.stream → fed.stream = otherFed.stream)
    (digested : digestPackage sha256 json first = .ok digest)
    (otherDigested : digestPackage sha256 json second = .ok otherDigest)
    (same : digest.digest = otherDigest.digest) :
    digest.labels = otherDigest.labels ∧ ∃ fed otherFed, Alike first second fed otherFed := by
  obtain ⟨fed, feeds, hashed, labels⟩ := digestPackage_eq digested
  obtain ⟨otherFed, otherFeeds, otherHashed, otherLabels⟩ := digestPackage_eq otherDigested
  have streams := collides fed otherFed feeds otherFeeds
    (hex_injective (by rw [← hashed, same, otherHashed]))
  obtain ⟨_, _, _, _, covered, listed, otherListed⟩ :=
    covered_eq_of_stream feeds otherFeeds streams
  have alike : Alike first second fed otherFed := .of_covered encodes covered listed otherListed
  refine ⟨?_, fed, otherFed, alike⟩
  have entries := congrArg (List.map Prod.fst) alike.files
  rw [List.map_map, List.map_map] at entries
  rw [labels, otherLabels]
  exact entries

/-- When two packages feed the same stream, everything that is approved is the same. -/
theorem alike_of_stream {json : SettingJson} {first second : Package} {fed otherFed : Fed}
    (encodes : Set.InjOn json.text
      {setting | setting ∈ first.manifest.settings ∨ setting ∈ second.manifest.settings})
    (feeds : feedPackage json first ⟨[], []⟩ = (.ok (), fed))
    (otherFeeds : feedPackage json second ⟨[], []⟩ = (.ok (), otherFed))
    (same : fed.stream = otherFed.stream) : Alike first second fed otherFed := by
  obtain ⟨_, _, _, _, covered, hashed, otherHashed⟩ := covered_eq_of_stream feeds otherFeeds same
  exact .of_covered encodes covered hashed otherHashed

def scriptMetadata : Files.Metadata := ⟨2, some 0, 1, 1, true, false, false⟩

def script : OpenFile where
  opened := .ok scriptMetadata
  read := fun offset wanted => .ok (([0x23, 0x21].drop offset).take wanted)
  after := .ok scriptMetadata
  bounded := by
    rintro offset wanted _ ⟨⟩
    simp

def scripted (reversed : Bool) : Package where
  manifest :=
    { protocolVersion := 1
      id := "glow"
      version := "1.0"
      args := ["--quiet"]
      onDemand := false
      ownsSettings := false
      capabilities := ⟨true, true, true, false, false,
        if reversed then [gnomeCopiedFilesMime, uriListMime]
        else [uriListMime, gnomeCopiedFilesMime]⟩
      settings := [⟨"color", "Color", "color", "#fff", [], none, none⟩]
      handshakeIds := []
      resources := [] }
  manifestPath := .ofText "/plugins/glow/syntra-plugin.json"
  executable := "/plugins/glow/run"
  system :=
    { canonicalize := .ok
      metadata := fun _ => script.opened
      readDir := fun _ => .ok []
      symlinkMetadata := fun _ => script.opened
      openRead := fun _ => .ok script }
  held := by cases reversed <;> decide

def colorJson : SettingJson where
  toVec := fun setting =>
    if setting.key = "color" then
      some (utf8 ("\x7b\"key\":\"color\",\"label\":\"Color\",\"kind\":\"color\"," ++
        "\"default\":\"#fff\",\"options\":[],\"min\":null,\"max\":null\x7d"))
    else none
  held := by
    intro setting text written
    split at written
    · simp only [Option.some.injEq] at written
      subst written
      decide
    · cases written

theorem hashContent_script (label : String) {post : Bytes → Fed → Prop}
    (ends : post [0x23, 0x21] { fed with stream := fed.stream ++ [0x23, 0x21] }) :
    (hashContent script label 0 2).Ensures fed post stopped := by
  have rest : hashContent script label 2 0 = pure [] := by
    rw [hashContent]
    rfl
  have bytes : script.read 0 (min readBuffer 2) = .ok [0x23, 0x21] := by decide
  rw [hashContent, if_pos (by decide), bytes]
  refine ensures_bind.mpr ((adds_update _).ensures (ensures_bind.mpr ?_))
  exact (congrArg (Ensures · _ _ _) rest).mpr ends

theorem hashFile_script {reversed : Bool} {kind label : String} {path : PathBuf}
    {post : Unit → Fed → Prop} (first : fed.hashed = [])
    (ends : post () ⟨fed.stream ++ fileSection kind (label, [0x23, 0x21]),
      [⟨path, label, [0x23, 0x21]⟩]⟩) :
    (hashFile (scripted reversed).system kind path label).Ensures fed post stopped := by
  have about : (scripted reversed).system.symlinkMetadata path = .ok scriptMetadata := rfl
  have opens : (scripted reversed).system.openRead path = .ok script := rfl
  have opened : script.opened = .ok scriptMetadata := rfl
  have after : script.after = .ok scriptMetadata := rfl
  have length : scriptMetadata.len.toNat = 2 := rfl
  have regular : scriptMetadata.isFile = true := rfl
  have small : 2 ≤ maxFileBytes := by decide
  have few : 0 < maxFiles := by decide
  have beyond : script.read 2 1 = .ok [] := by decide
  simp only [hashFile, ensures_bind, ensures_read, ensures_require,
    ensures_answered, first, about, opens, opened, after, length, regular, small, few, beyond,
    length_nil, Except.ok.injEq, forall_eq', reduceCtorEq, not_true_eq_false, false_implies,
    forall_true_left, implies_true, and_true, and_self, ensures_change]
  refine (adds_feedSection kind (utf8 label)).ensures ((adds_update _).ensures ?_)
  refine hashContent_script label ?_
  simpa [fileSection, textSection, sized, first] using ends

theorem scripted_feeds (reversed : Bool) : ∃ fed,
    feedPackage colorJson (scripted reversed) ⟨[], []⟩ = (.ok (), fed) ∧
      fed.stream = manifestText colorJson (scripted reversed).manifest ++
        fileSection "executable" ("/plugins/glow/run", [0x23, 0x21]) := by
  have ensures : (feedPackage colorJson (scripted reversed)).Ensures ⟨[], []⟩
      (fun _ fed => fed.stream = manifestText colorJson (scripted reversed).manifest ++
        fileSection "executable" ("/plugins/glow/run", [0x23, 0x21])) fun _ _ => False := by
    simp only [feedPackage, ensures_bind]
    refine (adds_feedManifest _).ensures (hashFile_script rfl ?_)
    simp only [feedResources, ensures_bind, ensures_answered]
    refine ⟨fun _ _ => ?_, by rintro _ ⟨⟩⟩
    rfl
  unfold Ensures at ensures
  split at ensures
  · rename_i fed feeds
    exact ⟨fed, feeds, ensures⟩
  · exact ensures.elim

theorem alike_scripted : ∃ fed otherFed,
    feedPackage colorJson (scripted false) ⟨[], []⟩ = (.ok (), fed) ∧
      feedPackage colorJson (scripted true) ⟨[], []⟩ = (.ok (), otherFed) ∧
      Alike (scripted false) (scripted true) fed otherFed := by
  obtain ⟨fed, feeds, stream⟩ := scripted_feeds false
  obtain ⟨otherFed, otherFeeds, otherStream⟩ := scripted_feeds true
  refine ⟨fed, otherFed, feeds, otherFeeds, alike_of_stream ?_ feeds otherFeeds ?_⟩
  · rintro setting (listed | listed) other (otherListed | otherListed) - <;> simp_all [scripted]
  · have sorted := sortTexts_eq (List.Perm.swap gnomeCopiedFilesMime uriListMime [])
    rw [stream, otherStream]
    simp [manifestText, scripted, sorted, Capabilities.flags, PluginManifest.argv]

end

end Syntra.Plugins
