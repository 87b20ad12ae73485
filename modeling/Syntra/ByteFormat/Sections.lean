import Syntra.ByteFormat.BigEndian

/-!
# Sections

A text that is put together from fields of variable length can be taken apart again when every field
is told apart at the front of any text. A list of fields has no length of its own: it ends where the
text goes on with something that none of its fields begins like (`Delimits.flatMap`).
-/

namespace ByteFormat

open List

/-- The `width` low-order bytes of `value`, least significant byte first. -/
def toLeBytes (width value : ℕ) : Bytes :=
  (toBeBytes width value).reverse

@[simp]
theorem length_toLeBytes (width value : ℕ) : (toLeBytes width value).length = width := by
  simp [toLeBytes]

theorem toLeBytes_inj {width first second : ℕ} (firstFits : first < 256 ^ width)
    (secondFits : second < 256 ^ width) (same : toLeBytes width first = toLeBytes width second) :
    first = second := by
  have numerals : toBeBytes width first = toBeBytes width second := reverse_injective same
  have values := congrArg fromBeBytes numerals
  rwa [fromBeBytes_toBeBytes, fromBeBytes_toBeBytes, Nat.mod_eq_of_lt firstFits,
    Nat.mod_eq_of_lt secondFits] at values

section

variable {α β : Type*} {domain : α → Prop} {code : α → Bytes}

/-- The code of an element can be told apart at the front of any text. -/
def Delimits (domain : α → Prop) (code : α → Bytes) : Prop :=
  ∀ ⦃first second⦄, domain first → domain second → ∀ ⦃rest other⦄,
    code first ++ rest = code second ++ other → first = second ∧ rest = other

def Begins (domain : α → Prop) (code : α → Bytes) (text : Bytes) : Prop :=
  ∃ element rest, domain element ∧ text = code element ++ rest

theorem Delimits.prod {domain' : β → Prop} {code' : β → Bytes} (delimits : Delimits domain code)
    (delimits' : Delimits domain' code') :
    Delimits (fun pair : α × β => domain pair.1 ∧ domain' pair.2)
      fun pair => code pair.1 ++ code' pair.2 := by
  rintro ⟨_, _⟩ ⟨_, _⟩ ⟨fits, fits'⟩ ⟨otherFits, otherFits'⟩ _ _ same
  simp only [append_assoc] at same
  obtain ⟨rfl, later⟩ := delimits fits otherFits same
  obtain ⟨rfl, remaining⟩ := delimits' fits' otherFits' later
  exact ⟨rfl, remaining⟩

/-- A code that is read through a map that keeps its arguments apart. -/
theorem Delimits.comp {domain' : β → Prop} (delimits : Delimits domain code) (view : β → α)
    (into : ∀ element, domain' element → domain (view element))
    (injective : Function.Injective view) :
    Delimits domain' fun element => code (view element) := by
  intro first second firstFits secondFits _ _ same
  have apart := delimits (into first firstFits) (into second secondFits) same
  exact ⟨injective apart.1, apart.2⟩

/-- Two lists are told apart where the text goes on with no further element. -/
theorem Delimits.flatMap (delimits : Delimits domain code) {list others : List α}
    (listFits : ∀ element ∈ list, domain element) (othersFit : ∀ element ∈ others, domain element)
    {rest other : Bytes} (restEnds : ¬Begins domain code rest)
    (otherEnds : ¬Begins domain code other)
    (same : list.flatMap code ++ rest = others.flatMap code ++ other) :
    list = others ∧ rest = other := by
  induction list generalizing others with
  | nil =>
    cases others with
    | nil => exact ⟨rfl, same⟩
    | cons element others =>
      refine absurd ⟨element, others.flatMap code ++ other, othersFit element (by simp), ?_⟩
        restEnds
      simpa using same
  | cons element list ih =>
    rw [forall_mem_cons] at listFits
    cases others with
    | nil =>
      refine absurd ⟨element, list.flatMap code ++ rest, listFits.1, ?_⟩ otherEnds
      simpa using same.symm
    | cons =>
      rw [forall_mem_cons] at othersFit
      simp only [flatMap_cons, append_assoc] at same
      obtain ⟨rfl, later⟩ := delimits listFits.1 othersFit.1 same
      obtain ⟨rfl, ends⟩ := ih listFits.2 othersFit.2 later
      exact ⟨rfl, ends⟩

end

def sized (bytes : Bytes) : Bytes :=
  toLeBytes 8 bytes.length ++ bytes

def Sizable (bytes : Bytes) : Prop := bytes.length < 256 ^ 8

instance : DecidablePred Sizable := fun bytes =>
  inferInstanceAs (Decidable (bytes.length < 256 ^ 8))

theorem delimits_sized : Delimits Sizable sized := by
  intro _ _ firstFits secondFits _ _ same
  simp only [sized, append_assoc] at same
  obtain ⟨lengths, contents⟩ := append_inj same (by simp)
  exact append_inj contents (toLeBytes_inj firstFits secondFits lengths)

/-- A tag and its content, both with their lengths. -/
def taggedSection (tag bytes : Bytes) : Bytes :=
  sized tag ++ sized bytes

theorem delimits_taggedSection {tag : Bytes} (fits : Sizable tag) :
    Delimits Sizable (taggedSection tag) :=
  (delimits_sized.prod delimits_sized).comp (fun bytes => (tag, bytes))
    (fun _ sizable => ⟨fits, sizable⟩) (Prod.mk_right_injective tag)

def Opens (tag text : Bytes) : Prop := ∃ rest, text = sized tag ++ rest

theorem opens_taggedSection (tag bytes rest : Bytes) :
    Opens tag (taggedSection tag bytes ++ rest) :=
  ⟨sized bytes ++ rest, by simp [taggedSection]⟩

def Headed (tags : List Bytes) (text : Bytes) : Prop := text = [] ∨ ∃ tag ∈ tags, Opens tag text

variable {α : Type*} {domain : α → Prop} {code : α → Bytes} {tag : Bytes} {tags : List Bytes}

theorem Headed.of_opens {text : Bytes} (opens : Opens tag text) (listed : tag ∈ tags) :
    Headed tags text :=
  .inr ⟨tag, listed, opens⟩

/-- After fields that all begin with a tag the text goes on as it does without them, or begins with
that tag. -/
theorem Headed.flatMap {rest : Bytes} (list : List α) (headed : Headed tags rest)
    (opens : ∀ element more, Opens tag (code element ++ more)) (listed : tag ∈ tags) :
    Headed tags (list.flatMap code ++ rest) := by
  cases list with
  | nil => simpa using headed
  | cons element list =>
    refine .of_opens ?_ listed
    simpa using opens element (list.flatMap code ++ rest)

theorem Headed.not_begins {text : Bytes} (headed : Headed tags text)
    (opens : ∀ element more, Opens tag (code element ++ more)) (fits : Sizable tag)
    (tagsFit : ∀ other ∈ tags, Sizable other) (unlisted : tag ∉ tags) :
    ¬Begins domain code text := by
  rintro ⟨element, rest, -, rfl⟩
  obtain ⟨more, begun⟩ := opens element rest
  rcases headed with empty | ⟨other, listed, late, otherwise⟩
  · have length := congrArg length (begun.symm.trans empty)
    simp [sized] at length
  · have same : sized tag ++ more = sized other ++ late := begun.symm.trans otherwise
    have tagged := (delimits_sized fits (tagsFit other listed) same).1
    exact unlisted (tagged ▸ listed)

/-- Two lists of fields of one tag are told apart where the texts go on with other tags. -/
theorem Delimits.fields (delimits : Delimits domain code) {list others : List α}
    {rest other : Bytes} (opens : ∀ element more, Opens tag (code element ++ more))
    (fits : Sizable tag) (tagsFit : ∀ otherTag ∈ tags, Sizable otherTag) (unlisted : tag ∉ tags)
    (listFits : ∀ element ∈ list, domain element) (othersFit : ∀ element ∈ others, domain element)
    (headed : Headed tags rest) (otherHeaded : Headed tags other)
    (same : list.flatMap code ++ rest = others.flatMap code ++ other) :
    list = others ∧ rest = other :=
  delimits.flatMap listFits othersFit (headed.not_begins opens fits tagsFit unlisted)
    (otherHeaded.not_begins opens fits tagsFit unlisted) same

end ByteFormat
