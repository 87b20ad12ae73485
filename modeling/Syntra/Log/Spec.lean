import Mathlib.Data.List.DropRight
import Syntra.Files.Offer

/-!
# The log specification

The daemon reports its log levels as a specification such as `info,external=warn`, and takes one
back (`syntra-log/src/lib.rs`, `service/frontend.rs`).
-/

namespace Syntra.Log

open List Option

open Files (isWhitespace trim trimEndMatches)

/-- How much is logged. -/
inductive LevelFilter
  | off | error | warn | info | debug | trace

/-- The parts that have levels of their own. -/
inductive Subsystem
  | input | network | clipboard | transfer | history | ipc | ui | other | external
  deriving DecidableEq

def Subsystem.all : List Subsystem :=
  [.input, .network, .clipboard, .transfer, .history, .ipc, .ui, .other, .external]

def Subsystem.asStr : Subsystem → String
  | .input => "input"
  | .network => "network"
  | .clipboard => "clipboard"
  | .transfer => "transfer"
  | .history => "history"
  | .ipc => "ipc"
  | .ui => "ui"
  | .other => "other"
  | .external => "external"

def toAsciiLowercase (text : List Char) : List Char := text.map Char.toLower

def Subsystem.fromStr (value : List Char) : Option Subsystem :=
  all.find? fun subsystem => toAsciiLowercase subsystem.asStr.toList = toAsciiLowercase value

/-- How the `log` crate writes and reads a level: one word, read in either case. -/
structure LevelText where
  display : LevelFilter → List Char
  fromStr : List Char → Option LevelFilter
  fromStr_lowercase : ∀ level, fromStr (toAsciiLowercase (display level)) = some level
  word : ∀ level, display level ≠ [] ∧ ∀ char ∈ toAsciiLowercase (display level), char.isAlpha

/-- A subsystem without a level of its own follows the global one. -/
structure LogConfig where
  level : LevelFilter
  own : Subsystem → Option LevelFilter

namespace LogConfig

variable (config : LogConfig)

def setLevel (level : LevelFilter) : LogConfig := { config with level := level }

def setSubsystemLevel (subsystem : Subsystem) (level : Option LevelFilter) : LogConfig :=
  { config with own := Function.update config.own subsystem level }

def overrides : List (Subsystem × LevelFilter) :=
  Subsystem.all.filterMap fun subsystem => (config.own subsystem).map (subsystem, ·)

def new (global : LevelFilter) : LogConfig :=
  setSubsystemLevel ⟨global, fun _ => none⟩ .external (some .warn)

def splitOnce (separator : Char) (text : List Char) : Option (List Char × List Char) :=
  if separator ∈ text then
    some (text.takeWhile (· ≠ separator), (text.dropWhile (· ≠ separator)).tail)
  else
    none

variable (text : LevelText)

/-- One entry of a specification; what cannot be read is skipped. -/
def applyEntry (entry : List Char) : LogConfig :=
  match splitOnce '=' entry with
  | some (name, level) =>
    match Subsystem.fromStr (trim name), text.fromStr (trim level) with
    | some subsystem, some level => config.setSubsystemLevel subsystem (some level)
    | _, _ => config
  | none =>
    match text.fromStr entry with
    | some level => config.setLevel level
    | none => config

def parse (spec : List Char) : LogConfig :=
  (((spec.splitOn ',').map trim).filter (· ≠ [])).foldl (applyEntry · text ·) (new .info)

def toSpec : List Char :=
  config.overrides.foldl
    (fun spec (subsystem, level) => spec ++
      (',' :: subsystem.asStr.toList ++ '=' :: toAsciiLowercase (text.display level)))
    (toAsciiLowercase (text.display config.level))

/-- The requests about levels. -/
inductive Request
  | setLevel (level : LevelFilter)
  | setSubsystemLevel (subsystem : Subsystem) (level : Option LevelFilter)
  | setLogSpec (spec : List Char)

/-- The overrides that a specification does not name are cleared first. -/
def handle : Request → LogConfig
  | .setLevel level => config.setLevel level
  | .setSubsystemLevel subsystem level => config.setSubsystemLevel subsystem level
  | .setLogSpec spec =>
    let updated := parse text spec
    let cleared := Subsystem.all.foldl (setSubsystemLevel · · none) (config.setLevel updated.level)
    updated.overrides.foldl (fun config (subsystem, level) =>
      config.setSubsystemLevel subsystem (some level)) cleared

variable {config text}

theorem not_isWhitespace_of_isAlpha {char : Char} (letter : char.isAlpha) : ¬isWhitespace char := by
  have range : (decide (65 ≤ char.val ∧ char.val ≤ 90) ||
      decide (97 ≤ char.val) && decide (char.val ≤ 122)) = true := letter
  simp only [Bool.or_eq_true, Bool.and_eq_true, decide_eq_true_eq, UInt32.le_iff_toNat_le] at range
  have values : 65 ≤ char.toNat ∧ char.toNat ≤ 90 ∨ 97 ≤ char.toNat ∧ char.toNat ≤ 122 := range
  simp only [isWhitespace, Bool.or_eq_true, Bool.and_eq_true, decide_eq_true_eq]
  omega

theorem trim_eq_self {entry : List Char} (solid : ∀ char ∈ entry, ¬isWhitespace char) :
    trim entry = entry := by
  rw [trim, trimEndMatches, dropWhile_eq_self_iff.mpr fun _ => solid _ (get_mem _ _),
    dropWhile_eq_self_iff.mpr fun _ => solid _ (mem_reverse.mp (get_mem _ _)),
    reverse_reverse]

theorem isAlpha_asStr (subsystem : Subsystem) : ∀ char ∈ subsystem.asStr.toList, char.isAlpha := by
  have letters : subsystem.asStr.toList.all Char.isAlpha = true := by cases subsystem <;> rfl
  exact all_eq_true.mp letters

theorem fromStr_asStr (subsystem : Subsystem) :
    Subsystem.fromStr subsystem.asStr.toList = some subsystem := by
  cases subsystem <;> decide

def entryOf (text : LevelText) (entry : Subsystem × LevelFilter) : List Char :=
  entry.1.asStr.toList ++ '=' :: toAsciiLowercase (text.display entry.2)

theorem applyEntry_level (level : LevelFilter) :
    config.applyEntry text (toAsciiLowercase (text.display level)) = config.setLevel level := by
  have none : '=' ∉ toAsciiLowercase (text.display level) :=
    fun member => absurd ((text.word level).2 _ member) (by decide)
  rw [applyEntry, splitOnce, if_neg none]
  simp only [text.fromStr_lowercase]

theorem applyEntry_entryOf (entry : Subsystem × LevelFilter) :
    config.applyEntry text (entryOf text entry) =
      config.setSubsystemLevel entry.1 (some entry.2) := by
  have name := isAlpha_asStr entry.1
  have before : ∀ char ∈ entry.1.asStr.toList, decide (char ≠ '=') = true := by
    rintro char member
    simp only [decide_eq_true_eq]
    rintro rfl
    exact absurd (name _ member) (by decide)
  have split : splitOnce '=' (entryOf text entry) =
      some (entry.1.asStr.toList, toAsciiLowercase (text.display entry.2)) := by
    rw [splitOnce, if_pos (by simp [entryOf]), entryOf, takeWhile_append_of_pos before,
      dropWhile_append_of_pos before]
    simp
  rw [applyEntry, split]
  simp only [trim_eq_self fun _ member => not_isWhitespace_of_isAlpha (name _ member),
    trim_eq_self fun _ member => not_isWhitespace_of_isAlpha ((text.word entry.2).2 _ member),
    fromStr_asStr, text.fromStr_lowercase]

theorem splitOn_foldl {α : Type} (write : α → List Char) (entries : List α) {first : List Char}
    (unsplit : ',' ∉ first) (plain : ∀ entry, ',' ∉ write entry) :
    (entries.foldl (fun spec entry => spec ++ ',' :: write entry) first).splitOn ',' =
      first :: entries.map write := by
  induction entries using reverseRecOn with
  | nil => simp [splitOn_eq_singleton unsplit]
  | append_singleton entries entry ih =>
    rw [foldl_append, foldl_cons, foldl_nil, splitOn_append_cons_self, ih,
      splitOn_eq_singleton (plain entry)]
    simp

theorem parse_toSpec :
    parse text (config.toSpec text) = config.overrides.foldl
      (fun config entry => config.setSubsystemLevel entry.1 (some entry.2))
      ((new .info).setLevel config.level) := by
  have letters (level : LevelFilter) := (text.word level).2
  have solid (entry : Subsystem × LevelFilter) : ∀ char ∈ entryOf text entry,
      char ≠ ',' ∧ ¬isWhitespace char := by
    intro char member
    rcases mem_append.mp member with member | member
    · have letter := isAlpha_asStr entry.1 char member
      exact ⟨fun same => absurd (same ▸ letter) (by decide), not_isWhitespace_of_isAlpha letter⟩
    · rcases mem_cons.mp member with rfl | member
      · decide
      · have letter := letters entry.2 char member
        exact ⟨fun same => absurd (same ▸ letter) (by decide), not_isWhitespace_of_isAlpha letter⟩
  have split : (config.toSpec text).splitOn ',' = toAsciiLowercase (text.display config.level) ::
      config.overrides.map (entryOf text) :=
    splitOn_foldl (entryOf text) config.overrides
      (fun member => absurd (letters _ _ member) (by decide))
      fun entry member => (solid entry _ member).1 rfl
  have kept : ((toAsciiLowercase (text.display config.level) ::
      config.overrides.map (entryOf text)).map trim).filter (· ≠ []) =
        toAsciiLowercase (text.display config.level) :: config.overrides.map (entryOf text) := by
    rw [List.map_cons, List.map_map, trim_eq_self fun _ member =>
      not_isWhitespace_of_isAlpha (letters _ _ member), map_congr_left fun entry _ =>
        show (trim ∘ entryOf text) entry = entryOf text entry from
          trim_eq_self fun _ member => (solid entry _ member).2, filter_eq_self]
    rintro entry (_ | ⟨_, member⟩)
    · simpa [toAsciiLowercase] using (text.word config.level).1
    · rcases mem_map.mp member with ⟨entry, _, rfl⟩
      simp [entryOf]
  simp only [parse, split, kept, foldl_cons, applyEntry_level, foldl_map, applyEntry_entryOf]

theorem foldl_overrides (source config : LogConfig) :
    source.overrides.foldl (fun config entry =>
      config.setSubsystemLevel entry.1 (some entry.2)) config =
        { config with own := fun subsystem => source.own subsystem <|> config.own subsystem } := by
  have walk (among : List Subsystem) : (among.filterMap fun subsystem =>
      (source.own subsystem).map (subsystem, ·)).foldl
        (fun config entry => config.setSubsystemLevel entry.1 (some entry.2)) config =
      { config with own := fun subsystem =>
          if subsystem ∈ among then source.own subsystem <|> config.own subsystem
          else config.own subsystem } := by
    induction among generalizing config with
    | nil => simp
    | cons first among ih =>
      cases known : source.own first with
      | none | some level =>
        simp only [filterMap_cons, known, map_none, map_some, foldl_cons, ih]
        refine congrArg (LogConfig.mk config.level) (funext fun subsystem => ?_)
        by_cases same : subsystem = first <;> simp_all [setSubsystemLevel]
  rw [overrides, walk]
  congr 1
  funext subsystem
  rw [if_pos (by cases subsystem <;> decide)]

theorem handle_setLogSpec (spec : List Char) :
    config.handle text (.setLogSpec spec) = parse text spec := by
  have cleared : Subsystem.all.foldl (setSubsystemLevel · · none)
      (config.setLevel (parse text spec).level) = ⟨(parse text spec).level, fun _ => none⟩ :=
    congrArg (LogConfig.mk _) (funext fun subsystem => by cases subsystem <;> rfl)
  rw [handle, foldl_overrides, cleared]
  simp only [orElse_eq_orElse, orElse_eq_or, or_none]

theorem parse_toSpec_eq_iff :
    parse text (config.toSpec text) = config ↔ config.own .external ≠ none := by
  rw [parse_toSpec, foldl_overrides]
  constructor
  · rintro same cleared
    have external := congrArg (own · .external) same
    simp [cleared, new, setSubsystemLevel, setLevel] at external
  · intro present
    refine congrArg (LogConfig.mk config.level) (funext fun subsystem => ?_)
    by_cases same : subsystem = .external
    · subst same
      cases known : config.own .external with
      | none => exact absurd known present
      | some level => rfl
    · simp [new, setSubsystemLevel, setLevel, same]

theorem setSubsystemLevel_external {subsystem : Subsystem} {level : Option LevelFilter}
    (present : config.own .external ≠ none) (kept : (subsystem, level) ≠ (.external, none)) :
    (config.setSubsystemLevel subsystem level).own .external ≠ none := by
  by_cases same : subsystem = .external
  · subst same
    cases level with
    | none => exact absurd rfl kept
    | some level => simp [setSubsystemLevel]
  · simpa [setSubsystemLevel, Function.update_of_ne (Ne.symm same)] using present

theorem parse_external (spec : List Char) : (parse text spec).own .external ≠ none := by
  unfold parse
  generalize ((spec.splitOn ',').map trim).filter (· ≠ []) = entries
  have start : (new .info).own .external ≠ none := by simp [new, setSubsystemLevel]
  generalize new .info = config at start ⊢
  induction entries generalizing config with
  | nil => exact start
  | cons entry entries ih =>
    apply ih
    simp only [applyEntry]
    split
    · split
      · exact setSubsystemLevel_external start (by simp)
      · exact start
    · split <;> exact start

theorem handle_external {request : Request} (present : config.own .external ≠ none)
    (kept : request ≠ .setSubsystemLevel .external none) :
    (config.handle text request).own .external ≠ none := by
  cases request with
  | setLevel level => exact present
  | setSubsystemLevel subsystem level =>
    exact setSubsystemLevel_external present fun same => kept (by cases same; rfl)
  | setLogSpec spec =>
    rw [handle_setLogSpec]
    exact parse_external spec

/-- In every configuration that requests lead to, the specification round-trips exactly when the
dependencies have a level of their own, as they do until a request clears it. -/
theorem roundTrips_iff (text : LevelText) (global : LevelFilter) (requests : List Request) :
    let config := requests.foldl (handle · text ·) (new global)
    let spec := config.toSpec text
    (parse text spec = config ↔ config.own .external ≠ none) ∧
      config.handle text (.setLogSpec spec) = parse text spec ∧
      ((∀ request ∈ requests, request ≠ .setSubsystemLevel .external none) →
        config.own .external ≠ none) := by
  refine ⟨parse_toSpec_eq_iff, handle_setLogSpec _, fun kept => ?_⟩
  have start : (new global).own .external ≠ none := by simp [new, setSubsystemLevel]
  generalize new global = config at start ⊢
  induction requests generalizing config with
  | nil => exact start
  | cons request requests ih =>
    exact ih (fun later member => kept later (.tail _ member)) _
      (handle_external start (kept request (.head _)))

def levelNames : List (String × LevelFilter) :=
  [("off", .off), ("error", .error), ("warn", .warn), ("info", .info), ("debug", .debug),
    ("trace", .trace)]

def levelText : LevelText where
  display
    | .off => "OFF".toList
    | .error => "ERROR".toList
    | .warn => "WARN".toList
    | .info => "INFO".toList
    | .debug => "DEBUG".toList
    | .trace => "TRACE".toList
  fromStr value := levelNames.lookup (String.ofList (toAsciiLowercase value))
  fromStr_lowercase level := by
    cases level <;> rfl
  word level := by
    refine ⟨?_, all_eq_true.mp ?_⟩
    · cases level <;> exact fun none => cons_ne_nil _ _ none
    · cases level <;> rfl

/-- Once the level of the dependencies is cleared, the specification `info` stands for another
configuration. -/
theorem external_reappears : ¬∀ (text : LevelText) (global : LevelFilter) (requests : List Request),
    let config := requests.foldl (handle · text ·) (new global)
    parse text (config.toSpec text) = config := by
  intro all
  exact parse_toSpec_eq_iff.mp (all levelText .info [.setSubsystemLevel .external none]) rfl

end LogConfig

end Syntra.Log
