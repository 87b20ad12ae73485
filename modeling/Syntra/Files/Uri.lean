import Syntra.Files.Offer

/-!
# File URIs

`file_uri_to_path` as it reads the bytes of a URI, by their indices, and the bytes of the path that
it yields. It inverts every percent-encoding of what follows the first slash of a path.
-/

namespace Syntra.Files

open ByteFormat Option List UInt8

/-- Why a URI is refused. -/
inductive UriError where
  | invalidUri (uri : String)
  /-- A panic. -/
  | outOfBounds (index : ℕ)

def readAt (bytes : Bytes) (index : ℕ) : Except UriError UInt8 :=
  match bytes[index]? with
  | some byte => .ok byte
  | none => .error (.outOfBounds index)

variable (uri : String)

def hexAt (bytes : Bytes) (index : ℕ) : Except UriError UInt8 := do
  match hex (← readAt bytes index) with
  | some value => pure value
  | none => throw (.invalidUri uri)

/-- The loop over the bytes from an index on. -/
def decodeFrom (uri : String) (bytes : Bytes) (index : ℕ) (decoded : Bytes) :
    Except UriError Bytes :=
  if index < bytes.length then do
    let byte ← readAt bytes index
    if byte = 0x25 then
      if index + 2 ≥ bytes.length then
        throw (.invalidUri uri)
      else
        let high ← hexAt uri bytes (index + 1)
        let low ← hexAt uri bytes (index + 2)
        decodeFrom uri bytes (index + 3) (decoded ++ [high <<< 4 ||| low])
    else
      decodeFrom uri bytes (index + 1) (decoded ++ [byte])
  else pure decoded
termination_by bytes.length - index

def decodePath (encoded : Bytes) : Except UriError Bytes := do
  let decoded ← decodeFrom uri encoded 0 []
  if 0 ∈ decoded then
    throw (.invalidUri uri)
  -- `is_absolute`
  else if decoded.head? ≠ some 0x2f then
    throw (.invalidUri uri)
  else pure decoded

/-- The bytes of the path. -/
def uriPathBytes : Except UriError Bytes :=
  match encodedPath (utf8 uri) with
  | none => .error (.invalidUri uri)
  | some encoded => decodePath uri encoded

/-- The lower-case and the upper-case digit of a value below sixteen. -/
def hexDigits (value : UInt8) : List UInt8 :=
  if value < 10 then [0x30 + value] else [0x61 + (value - 10), 0x41 + (value - 10)]

/-- Some bytes of a path are escaped, a percent sign always, with digits of either case. -/
inductive Encodes : Bytes → Bytes → Prop
  | nil : Encodes [] []
  | raw {byte : UInt8} {encoded path : Bytes} (plain : byte ≠ 0x25) (rest : Encodes encoded path) :
      Encodes (byte :: encoded) (byte :: path)
  | escaped {byte high low : UInt8} {encoded path : Bytes} (upper : high ∈ hexDigits (byte / 16))
      (lower : low ∈ hexDigits (byte % 16)) (rest : Encodes encoded path) :
      Encodes (0x25 :: high :: low :: encoded) (byte :: path)

/-- Two hexadecimal digits follow every percent sign. -/
def Escaped (encoded : Bytes) : Prop :=
  ∀ index : ℕ, encoded[index]? = some 0x25 →
    (encoded[index + 1]?.bind hex).isSome ∧ (encoded[index + 2]?.bind hex).isSome

theorem forall_uint8 {holds : UInt8 → Prop} (all : ∀ value < 256, holds (UInt8.ofNat value))
    (value : UInt8) : holds value := by
  have checked := all value.toNat value.toNat_lt
  rwa [UInt8.ofNat_toNat] at checked

theorem hex_of_mem (value : UInt8) : ∀ digit ∈ hexDigits (value % 16),
    hex digit = some (value % 16) := by
  -- decided as it stands, the statement may be checked for every byte instead of the digits
  have checked : ∀ value : UInt8, (hexDigits (value % 16)).all fun digit =>
      decide (hex digit = some (value % 16)) := forall_uint8 (by decide +kernel)
  exact fun digit member => of_decide_eq_true (List.all_eq_true.mp (checked value) digit member)

theorem mem_of_hex : ∀ digit : UInt8,
    (hex digit).all fun value => decide (value < 16 ∧ digit ∈ hexDigits value) :=
  forall_uint8 (by decide +kernel)

theorem div_mod_sixteen : ∀ byte : UInt8,
    byte / 16 = byte / 16 % 16 ∧ (byte / 16) <<< 4 ||| (byte % 16) = byte :=
  forall_uint8 (by decide +kernel)

theorem halves : ∀ high < 16, ∀ low < 16,
    (ofNat high <<< 4 ||| ofNat low) / 16 = ofNat high ∧
      (ofNat high <<< 4 ||| ofNat low) % 16 = ofNat low := by
  decide +kernel

theorem percentDecode_escaped (high low : UInt8) (encoded : Bytes) :
    percentDecode (0x25 :: high :: low :: encoded) = (hex high).bind fun high =>
      (hex low).bind fun low => (percentDecode encoded).map ((high <<< 4 ||| low) :: ·) := by
  rw [percentDecode, if_pos rfl]
  cases hex high <;> cases hex low <;> cases percentDecode encoded <;> rfl

theorem percentDecode_raw {byte : UInt8} (plain : byte ≠ 0x25) (encoded : Bytes) :
    percentDecode (byte :: encoded) = (percentDecode encoded).map (byte :: ·) := by
  rcases encoded with _ | ⟨high, _ | ⟨low, encoded⟩⟩ <;> simp [percentDecode, plain]

variable {encoded bytes : Bytes} {index : ℕ}

theorem percentDecode_of_encodes {path : Bytes} (encodes : Encodes encoded path) :
    percentDecode encoded = some path := by
  induction encodes with
  | nil => rfl
  | raw plain _ ih => rw [percentDecode_raw plain, ih, map_some]
  | @escaped byte high low encoded path upper lower rest ih =>
    rw [(div_mod_sixteen byte).1] at upper
    rw [percentDecode_escaped, hex_of_mem _ high upper, hex_of_mem _ low lower, ih,
      ← (div_mod_sixteen byte).1]
    simp [(div_mod_sixteen byte).2]

theorem percentDecode_cut (cut : encoded.length < 2) : percentDecode (0x25 :: encoded) = none := by
  rcases encoded with _ | ⟨_, _ | ⟨_, _⟩⟩
  · rfl
  · rfl
  · exact absurd cut (by simp)

theorem encodes_of_percentDecode {path : Bytes} (decoded : percentDecode encoded = some path) :
    Encodes encoded path := by
  induction encoded using percentDecode.induct generalizing path with
  | case1 =>
    cases decoded
    exact .nil
  | case2 high low _ ih =>
    rw [percentDecode_escaped] at decoded
    obtain ⟨upper, highHex, decoded⟩ := bind_eq_some_iff.mp decoded
    obtain ⟨lower, lowHex, decoded⟩ := bind_eq_some_iff.mp decoded
    obtain ⟨rest, further, rfl⟩ := map_eq_some_iff.mp decoded
    have highDigit := mem_of_hex high
    have lowDigit := mem_of_hex low
    rw [highHex, all_some, decide_eq_true_eq] at highDigit
    rw [lowHex, all_some, decide_eq_true_eq] at lowDigit
    have split := halves upper.toNat highDigit.1 lower.toNat lowDigit.1
    rw [UInt8.ofNat_toNat, UInt8.ofNat_toNat] at split
    refine .escaped ?_ ?_ (ih further)
    · rw [split.1]
      exact highDigit.2
    · rw [split.2]
      exact lowDigit.2
  | case3 encoded few =>
    rw [percentDecode_cut] at decoded
    · cases decoded
    · rcases encoded with _ | ⟨high, _ | ⟨low, encoded⟩⟩
      · exact Nat.zero_lt_two
      · exact Nat.one_lt_two
      · exact (few high low encoded rfl).elim
  | case4 _ _ plain ih =>
    rw [percentDecode_raw plain] at decoded
    obtain ⟨_, further, rfl⟩ := map_eq_some_iff.mp decoded
    exact .raw plain (ih further)

theorem escaped_cons_iff (byte : UInt8) (encoded : Bytes) :
    Escaped (byte :: encoded) ↔
      (byte = 0x25 → (encoded[0]?.bind hex).isSome ∧ (encoded[1]?.bind hex).isSome) ∧
        Escaped encoded := by
  constructor
  · intro escaped
    refine ⟨fun percent => escaped 0 (by rw [percent]; rfl), fun index found => ?_⟩
    exact escaped (index + 1) found
  · rintro ⟨first, escaped⟩ index found
    cases index with
    | zero => exact first (some.inj found)
    | succ index => exact escaped index found

theorem isSome_percentDecode_iff (encoded : Bytes) :
    (percentDecode encoded).isSome ↔ Escaped encoded := by
  induction encoded using percentDecode.induct with
  | case1 => exact iff_of_true rfl fun _ found => by cases found
  | case2 high low _ ih =>
    have digit {value : UInt8} (known : (hex value).isSome) : value ≠ 0x25 := by
      rintro rfl
      cases known
    rw [percentDecode_escaped, escaped_cons_iff, escaped_cons_iff, escaped_cons_iff, ← ih]
    cases highHex : hex high with
    | none => simp [highHex]
    | some =>
      cases lowHex : hex low with
      | none => simp [highHex, lowHex]
      | some =>
        have highPlain : high ≠ 0x25 := digit (by rw [highHex]; rfl)
        have lowPlain : low ≠ 0x25 := digit (by rw [lowHex]; rfl)
        simp [highHex, lowHex, highPlain, lowPlain]
  | case3 encoded few =>
    rw [escaped_cons_iff]
    rcases encoded with _ | ⟨high, _ | ⟨low, encoded⟩⟩
    · simp [percentDecode]
    · simp [percentDecode]
    · exact (few high low encoded rfl).elim
  | case4 _ _ plain ih =>
    rw [percentDecode_raw plain, escaped_cons_iff, isSome_map, ih]
    exact ⟨fun escaped => ⟨fun percent => absurd percent plain, escaped⟩, fun both => both.2⟩

theorem readAt_of_lt (inside : index < bytes.length) : readAt bytes index = .ok bytes[index] := by
  rw [readAt, getElem?_eq_getElem inside]

theorem hexAt_of_lt (inside : index < bytes.length) :
    hexAt uri bytes index = match hex bytes[index] with
      | some value => .ok value
      | none => .error (.invalidUri uri) := by
  rw [hexAt, readAt_of_lt inside]
  rfl

theorem decodeFrom_eq (bytes : Bytes) (index : ℕ) (decoded : Bytes) :
    decodeFrom uri bytes index decoded =
      match percentDecode (bytes.drop index) with
      | some path => .ok (decoded ++ path)
      | none => .error (.invalidUri uri) := by
  induction index, decoded using decodeFrom.induct bytes with
  | case1 index _ inside escaped raw =>
    rw [decodeFrom, if_pos inside, readAt_of_lt inside, List.drop_eq_getElem_cons inside]
    by_cases percent : bytes[index] = 0x25
    · rw [percent]
      by_cases cut : index + 2 ≥ bytes.length
      · rw [percentDecode_cut (by rw [List.length_drop]; omega)]
        simp only [bind, Except.bind, if_true, if_pos cut]
        rfl
      · have second : index + 1 < bytes.length := by omega
        have third : index + 2 < bytes.length := by omega
        rw [List.drop_eq_getElem_cons second, List.drop_eq_getElem_cons third,
          percentDecode_escaped]
        simp only [bind, Except.bind, if_true, if_neg cut, hexAt_of_lt uri second,
          hexAt_of_lt uri third]
        cases hex bytes[index + 1] with
        | none => rfl
        | some high =>
          cases hex bytes[index + 2] with
          | none => rfl
          | some low =>
            simp only [Option.bind_some, escaped cut high low]
            cases percentDecode (bytes.drop (index + 3)) <;> simp
    · rw [percentDecode_raw percent]
      simp only [bind, Except.bind, if_neg percent, raw]
      cases percentDecode (bytes.drop (index + 1)) <;> simp
  | case2 _ _ outside =>
    rw [decodeFrom, if_neg outside, List.drop_eq_nil_of_le (Nat.le_of_not_lt outside)]
    simp [percentDecode, pure, Except.pure]

/-- A URI of a local file: the rest of it after the first slash of the path. -/
def Local (rest : Bytes) : Prop :=
  utf8 uri = utf8 "file:///" ++ rest ∨ utf8 uri = utf8 "file://localhost/" ++ rest

theorem decodePath_eq (rest : Bytes) :
    decodePath uri (0x2f :: rest) = match percentDecode rest with
      | some path => if 0 ∈ path then .error (.invalidUri uri) else .ok (0x2f :: path)
      | none => .error (.invalidUri uri) := by
  have slash : (0x2f : UInt8) ≠ 0x25 := by decide
  rw [decodePath, decodeFrom_eq, List.drop_zero, percentDecode_raw slash]
  cases percentDecode rest with
  | none => rfl
  | some path =>
    by_cases nul : 0 ∈ path
    · simp [bind, Except.bind, nul]
      rfl
    · simp [bind, Except.bind, nul]

theorem encodedPath_of_local {uri : String} {rest : Bytes} (isLocal : Local uri rest) :
    encodedPath (utf8 uri) = some (0x2f :: rest) := by
  rcases isLocal with same | same <;> rw [same] <;> rfl

theorem local_of_encodedPath {uri : String} (found : encodedPath (utf8 uri) = some encoded) :
    ∃ rest, encoded = 0x2f :: rest ∧ Local uri rest := by
  obtain ⟨after, starts, found⟩ := bind_eq_some_iff.mp found
  have same := isPrefixOf?_eq_some_iff_append_eq.mp starts
  cases host : (utf8 "localhost/").isPrefixOf? after with
  | some path =>
    simp only [host, some.injEq] at found
    refine ⟨path, found.symm, .inr ?_⟩
    rw [← same, ← isPrefixOf?_eq_some_iff_append_eq.mp host]
    rfl
  | none =>
    simp only [host] at found
    split at found
    · rename_i slash
      obtain ⟨path, rfl⟩ := head?_eq_some_iff.mp slash
      cases found
      exact ⟨path, rfl, .inl same.symm⟩
    · cases found

theorem uriPathBytes_cases :
    (∃ rest path, Local uri rest ∧ Encodes rest path ∧ 0 ∉ path ∧
      uriPathBytes uri = .ok (0x2f :: path)) ∨
    (∀ rest path, Local uri rest → Encodes rest path → 0 ∈ path) ∧
      uriPathBytes uri = .error (.invalidUri uri) := by
  unfold uriPathBytes
  cases found : encodedPath (utf8 uri) with
  | none =>
    refine .inr ⟨fun rest path isLocal _ => ?_, rfl⟩
    cases (encodedPath_of_local isLocal).symm.trans found
  | some =>
    obtain ⟨rest, rfl, isLocal⟩ := local_of_encodedPath found
    simp only [decodePath_eq]
    have alone {other : Bytes} (also : Local uri other) : other = rest := by
      cases (encodedPath_of_local also).symm.trans found
      rfl
    cases known : percentDecode rest with
    | none =>
      refine .inr ⟨fun other path also encodes => ?_, rfl⟩
      cases alone also
      cases (percentDecode_of_encodes encodes).symm.trans known
    | some path =>
      by_cases nul : 0 ∈ path
      · refine .inr ⟨fun _ _ also encodes => ?_, if_pos nul⟩
        cases alone also
        cases (percentDecode_of_encodes encodes).symm.trans known
        exact nul
      · exact .inl ⟨rest, path, isLocal, encodes_of_percentDecode known, nul, if_neg nul⟩

theorem isAbsolute_ofBytes (path : Bytes) : (PathBuf.ofBytes (0x2f :: path)).isAbsolute = true := by
  have split : (0x2f :: path : Bytes).splitOn 0x2f = [] :: path.splitOn 0x2f := by
    simp [splitOn_cons_eq_if_modifyHead]
  have some : 0 < (path.splitOn 0x2f).length := length_pos_of_ne_nil (splitOn_ne_nil _ _)
  simp [PathBuf.isAbsolute, PathBuf.ofBytes, split, some]

theorem fileUriToPath_eq : fileUriToPath uri = match uriPathBytes uri with
    | .ok bytes => .ok (.ofBytes bytes)
    | .error _ => .error (.invalidUri uri) := by
  unfold fileUriToPath uriPathBytes
  cases found : encodedPath (utf8 uri) with
  | none => rfl
  | some =>
    obtain ⟨rest, rfl, -⟩ := local_of_encodedPath found
    have slash : (0x2f : UInt8) ≠ 0x25 := by decide
    simp only [decodePath_eq, Option.bind_some, percentDecode_raw slash]
    cases percentDecode rest with
    | none => rfl
    | some path =>
      by_cases nul : 0 ∈ path
      · simp [okOr, bind, Except.bind, nul]
        rfl
      · simp [okOr, bind, Except.bind, nul, isAbsolute_ofBytes]

/-- A URI is read within its bounds. It is decoded just if it is one of a local file, every percent
sign is followed by two digits and no byte stands for NUL. Every encoding of the bytes after the
first slash of a path is decoded to that path. -/
theorem uri_decoding_exact (uri : String) :
    (∀ index, uriPathBytes uri ≠ .error (.outOfBounds index)) ∧
      ((∃ path, fileUriToPath uri = .ok path) ↔ ∃ rest, Local uri rest ∧ Escaped rest ∧
        ∀ path, Encodes rest path → 0 ∉ path) ∧
      ∀ rest path, Local uri rest → Encodes rest path → 0 ∉ path →
        uriPathBytes uri = .ok (0x2f :: path) ∧
          fileUriToPath uri = .ok (.ofBytes (0x2f :: path)) := by
  rw [fileUriToPath_eq]
  rcases uriPathBytes_cases uri with ⟨rest, path, isLocal, encodes, clean, decoded⟩ | ⟨nul, refused⟩
  · have alone {other further : Bytes} (also : Local uri other) (same : Encodes other further) :
        further = path := by
      have first := encodedPath_of_local isLocal
      cases (encodedPath_of_local also).symm.trans first
      exact Option.some.inj
        ((percentDecode_of_encodes same).symm.trans (percentDecode_of_encodes encodes))
    rw [decoded]
    refine ⟨fun index panics => ?_, iff_of_true ⟨_, rfl⟩ ⟨rest, isLocal, ?_, fun other same => ?_⟩,
      fun _ _ also same _ => ?_⟩
    · cases panics
    · rw [← isSome_percentDecode_iff, percentDecode_of_encodes encodes]
      rfl
    · rw [alone isLocal same]
      exact clean
    · rw [alone also same]
      exact ⟨rfl, rfl⟩
  · rw [refused]
    refine ⟨fun _ panics => ?_, iff_of_false (fun accepted => ?_) ?_,
      fun rest path isLocal encodes clean => ?_⟩
    · cases panics
    · rcases accepted with ⟨path, ⟨⟩⟩
    · rintro ⟨rest, isLocal, escaped, clean⟩
      rw [← isSome_percentDecode_iff, Option.isSome_iff_exists] at escaped
      obtain ⟨path, known⟩ := escaped
      have encodes := encodes_of_percentDecode known
      exact clean path encodes (nul rest path isLocal encodes)
    · exact absurd (nul rest path isLocal encodes) clean

/-- The first slash of a path cannot be escaped. -/
theorem escaped_first_slash :
    Encodes [0x25, 0x32, 0x46, 0x61] (utf8 "/a") ∧
      utf8 "file://%2Fa" = utf8 "file://" ++ [0x25, 0x32, 0x46, 0x61] ∧
      fileUriToPath "file://%2Fa" = .error (.invalidUri "file://%2Fa") :=
  ⟨.escaped (by decide) (by decide) (.raw (by decide) .nil), by decide, rfl⟩

end Syntra.Files
