import Syntra.ByteFormat.BigEndian

/-!
# Readers of byte strings

A reader consumes bytes from the front of its input and may refuse. The rules here take a
sequence of reads apart: into what each read accepted (`Reader.bind_eq_ok`), or down to the
value that the last one yields (`Reader.Ensures`).
-/

namespace ByteFormat

/-- A computation that consumes bytes from the front of its input, or refuses with `ε`. -/
def Reader (ε α : Type) : Type :=
  Bytes → Except ε (α × Bytes)

namespace Reader

variable {ε α β : Type}

instance : Monad (Reader ε) where
  pure value := fun input => .ok (value, input)
  bind reader next := fun input =>
    match reader input with
    | .ok (value, rest) => next value rest
    | .error error => .error error

instance : MonadExceptOf ε (Reader ε) where
  throw error := fun _ => .error error
  tryCatch reader handle := fun input =>
    match reader input with
    | .ok result => .ok result
    | .error error => handle error input

/-- A check that reads nothing. -/
instance : MonadLift (Except ε) (Reader ε) where
  monadLift check := fun input => check.map (fun value => (value, input))

variable {input rest : Bytes}

@[simp]
theorem pure_eq_ok {value result : α} :
    (pure value : Reader ε α) input = .ok (result, rest) ↔ value = result ∧ input = rest := by
  change Except.ok (value, input) = Except.ok (result, rest) ↔ _
  simp

variable {result : β} {error : ε} {next : Reader ε β} {condition : Prop}

@[simp]
theorem throw_eq_ok {result : α} :
    (throw error : Reader ε α) input = .ok (result, rest) ↔ False := by
  simp

@[simp]
theorem lift_eq_ok {check : Except ε α} {result : α} :
    (liftM check : Reader ε α) input = .ok (result, rest) ↔ check = .ok result ∧ input = rest := by
  change check.map (fun value => (value, input)) = .ok (result, rest) ↔ _
  cases check <;> simp [Except.map]

@[simp]
theorem bind_eq_ok {reader : Reader ε α} {next : α → Reader ε β} :
    (reader >>= next) input = .ok (result, rest) ↔
      ∃ value middle, reader input = .ok (value, middle) ∧
        next value middle = .ok (result, rest) := by
  change (match reader input with
    | .ok (value, rest) => next value rest
    | .error error => .error error) = .ok (result, rest) ↔ _
  rcases reader input with error | ⟨value, middle⟩ <;> simp

@[simp]
theorem ite_throw_bind_eq_ok [Decidable condition] {skipped : α → Reader ε β} :
    (if condition then (throw error : Reader ε α) >>= skipped else next) input =
        .ok (result, rest) ↔ ¬condition ∧ next input = .ok (result, rest) := by
  split
  · rename_i refused
    simp [refused]
  · rename_i passed
    simp [passed]

@[simp]
theorem ite_throw_eq_ok [Decidable condition] :
    (if condition then (throw error : Reader ε β) else next) input = .ok (result, rest) ↔
      ¬condition ∧ next input = .ok (result, rest) := by
  split
  · rename_i refused
    simp [refused]
  · rename_i passed
    simp [passed]

/-- Every value that the reader yields satisfies `post`, whatever it read. -/
def Ensures (reader : Reader ε α) (post : α → Prop) : Prop :=
  ∀ (input rest : Bytes) (value : α), reader input = .ok (value, rest) → post value

variable {post : α → Prop}

theorem Ensures.pure {value : α} (holds : post value) :
    Ensures (Pure.pure value : Reader ε α) post := by
  intro _ _ _ accepted
  rw [pure_eq_ok] at accepted
  exact accepted.1 ▸ holds

theorem Ensures.throw : Ensures (MonadExcept.throw error : Reader ε α) post := by
  intro _ _ _ accepted
  rw [throw_eq_ok] at accepted
  exact accepted.elim

theorem Ensures.bind {first : Reader ε β} {next : β → Reader ε α}
    (ensured : ∀ value, Ensures (next value) post) : Ensures (first >>= next) post := by
  intro _ rest value accepted
  rcases bind_eq_ok.mp accepted with ⟨found, middle, -, continued⟩
  exact ensured found middle rest value continued

theorem Ensures.ite [Decidable condition] {yes no : Reader ε α} (ifTrue : Ensures yes post)
    (ifFalse : Ensures no post) : Ensures (if condition then yes else no) post := by
  split
  · exact ifTrue
  · exact ifFalse

end Reader

section Checks

variable {ε α β : Type}

/-- `Option::ok_or`. -/
def okOr (value : Option α) (missing : ε) : Except ε α :=
  match value with
  | some value => .ok value
  | none => .error missing

@[simp]
theorem okOr_eq_ok {value : Option α} {missing : ε} {result : α} :
    okOr value missing = .ok result ↔ value = some result := by
  cases value <;> simp [okOr]

variable {result : β} {next : Except ε β} {error : ε} {condition : Prop}

@[simp]
theorem bind_ok {first : Except ε α} {next : α → Except ε β} :
    (first >>= next) = .ok result ↔ ∃ value, first = .ok value ∧ next value = .ok result := by
  cases first with
  | error error =>
    change Except.error error = .ok result ↔ _
    simp
  | ok value =>
    change next value = .ok result ↔ _
    simp

@[simp]
theorem pure_ok {value result : α} : (pure value : Except ε α) = .ok result ↔ value = result := by
  change Except.ok value = .ok result ↔ _
  simp

@[simp]
theorem throw_ok {result : α} : (throw error : Except ε α) = .ok result ↔ False := by
  simp

@[simp]
theorem guard_bind_ok [Decidable condition] {skipped : α → Except ε β} :
    (if condition then (throw error : Except ε α) >>= skipped else next) = .ok result ↔
      ¬condition ∧ next = .ok result := by
  split
  · rename_i refused
    simp [refused]
  · rename_i passed
    simp [passed]

@[simp]
theorem guard_ok [Decidable condition] :
    (if condition then (throw error : Except ε β) else next) = .ok result ↔
      ¬condition ∧ next = .ok result := by
  split
  · rename_i refused
    simp [refused]
  · rename_i passed
    simp [passed]

@[simp]
theorem guard_error_ok [Decidable condition] :
    (if condition then Except.error error else next) = .ok result ↔
      ¬condition ∧ next = .ok result :=
  guard_ok

theorem of_forM_eq_ok {elements : List α} {check : α → Except ε Unit}
    (passed : elements.forM check = .ok ()) : ∀ element ∈ elements, check element = .ok () := by
  induction elements with
  | nil =>
    exact List.forall_mem_nil _
  | cons first elements ih =>
    change (check first >>= fun _ => elements.forM check) = .ok () at passed
    rw [bind_ok] at passed
    rcases passed with ⟨_, here, rest⟩
    exact List.forall_mem_cons.mpr ⟨here, ih rest⟩

theorem forM_eq_ok {elements : List α} {check : α → Except ε Unit}
    (passes : ∀ element ∈ elements, check element = .ok ()) : elements.forM check = .ok () := by
  induction elements with
  | nil => rfl
  | cons _ _ ih =>
    rcases List.forall_mem_cons.mp passes with ⟨here, rest⟩
    exact bind_ok.mpr ⟨(), here, ih rest⟩

end Checks

namespace Reader

variable {ε α β : Type}

/-- Splits `length` bytes off the front, or refuses with `short`. -/
def take (short : ε) (length : ℕ) : Reader ε Bytes := fun input =>
  if input.length < length then .error short else .ok (input.take length, input.drop length)

@[simp]
theorem take_eq_ok {short : ε} {length : ℕ} {input bytes rest : Bytes} :
    take short length input = .ok (bytes, rest) ↔
      bytes.length = length ∧ input = bytes ++ rest := by
  unfold take
  split
  · rename_i tooShort
    constructor
    · intro impossible
      cases impossible
    · rintro ⟨_, rfl⟩
      simp only [List.length_append] at tooShort
      omega
  · rename_i longEnough
    constructor
    · intro accepted
      rcases accepted with ⟨rfl, rfl⟩
      exact ⟨by rw [List.length_take]; omega, (List.take_append_drop length input).symm⟩
    · rintro ⟨rfl, rfl⟩
      simp

/-- A big-endian scalar of `width` bytes, converted by `ofNat`. -/
def scalar (short : ε) (width : ℕ) (ofNat : ℕ → α) : Reader ε α := do
  let bytes ← take short width
  pure (ofNat (fromBeBytes bytes))

theorem scalar_eq_ok {short : ε} {width : ℕ} {ofNat : ℕ → α} {toNat : α → ℕ}
    (ofNat_toNat : ∀ value, ofNat (toNat value) = value)
    (toNat_lt : ∀ value, toNat value < 256 ^ width)
    (toNat_ofNat : ∀ number < 256 ^ width, toNat (ofNat number) = number)
    {input rest : Bytes} {value : α} :
    scalar short width ofNat input = .ok (value, rest) ↔
      input = toBeBytes width (toNat value) ++ rest := by
  simp only [scalar, bind_eq_ok, take_eq_ok, pure_eq_ok]
  constructor
  · rintro ⟨bytes, _, ⟨sized, rfl⟩, rfl, rfl⟩
    have bounded : fromBeBytes bytes < 256 ^ width := sized ▸ fromBeBytes_lt bytes
    rw [toNat_ofNat _ bounded, ← sized, toBeBytes_fromBeBytes]
  · rintro rfl
    refine ⟨toBeBytes width (toNat value), rest, ⟨length_toBeBytes _ _, rfl⟩, ?_, rfl⟩
    rw [fromBeBytes_toBeBytes, Nat.mod_eq_of_lt (toNat_lt value), ofNat_toNat]

end Reader

def utf8 (text : String) : Bytes :=
  text.toByteArray.data.toList

def fromUtf8? (bytes : Bytes) : Option String :=
  if valid : (ByteArray.mk bytes.toArray).IsValidUTF8 then
    some (String.ofByteArray (ByteArray.mk bytes.toArray) valid)
  else
    none

theorem fromUtf8?_eq_some {bytes : Bytes} {text : String} :
    fromUtf8? bytes = some text ↔ bytes = utf8 text := by
  unfold fromUtf8?
  constructor
  · intro decoded
    split at decoded
    · simp only [Option.some.injEq] at decoded
      subst decoded
      rfl
    · cases decoded
  · rintro rfl
    have rebuilt : ByteArray.mk (utf8 text).toArray = text.toByteArray := rfl
    rw [dif_pos (by rw [rebuilt]; exact text.isValidUTF8)]
    rfl

@[simp]
theorem fromUtf8?_utf8 (text : String) : fromUtf8? (utf8 text) = some text :=
  fromUtf8?_eq_some.mpr rfl

end ByteFormat
