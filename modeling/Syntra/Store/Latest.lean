import Syntra.Store.Outcomes
import Syntra.Store.Paging

/-!
# Whether the newest record holds a content

`is_latest` has a query of its own. It compares the payload columns but not the media type and the
dimensions of an image, and it orders rows of one time by their sequences, where `export_page` first
looks at the devices. It agrees with the first exported record if and only if neither difference
shows.
-/

namespace Syntra.Store

open ByteFormat Tables List

/-- In order: text, image bytes, media type, width, height, file metadata. -/
abbrev EncodedContent :=
  Option String × Option Bytes × Option String × Option UInt32 × Option UInt32 × Option String

def encodeContent (env : Environment) : HistoryContent → EncodedContent
  | .text value => (some value, none, none, none, none, none)
  | .image bytes mediaType width height => (none, bytes, mediaType, width, height, none)
  | .files files => (none, none, none, none, none, some (env.filesToJson files))

/-- Equal up to the media type and the dimensions of an image. -/
def HistoryContent.Alike : HistoryContent → HistoryContent → Prop
  | .image bytes _ _ _, .image others _ _ _ => bytes = others
  | first, second => first = second

namespace HistoryContent

variable {first second content : HistoryContent}

theorem Alike.refl (content : HistoryContent) : content.Alike content := by
  cases content <;> rfl

theorem Alike.symm (alike : first.Alike second) : second.Alike first := by
  cases first <;> cases second <;> exact Eq.symm alike

theorem Alike.trans (alike : first.Alike second) (other : second.Alike content) :
    first.Alike content := by
  cases first <;> cases second <;> cases content <;> simp_all [Alike]

/-- An image with the bytes of the other one, under another media type or of other dimensions. -/
def Variant (content other : HistoryContent) : Prop := other.Alike content ∧ other ≠ content

/-- The content is an image. -/
def IsImage : HistoryContent → Prop
  | .image .. => True
  | _ => False

theorem Alike.eq (alike : first.Alike content) (plain : ¬first.IsImage) : first = content := by
  cases first with
  | image => exact absurd trivial plain
  | text | files => exact alike

theorem IsImage.exists_variant (image : content.IsImage) :
    ∃ other : HistoryContent, other.Variant content := by
  cases content with
  | text | files => exact image.elim
  | image bytes mediaType width height =>
    refine ⟨.image bytes mediaType (if width = none then some 0 else none) height, rfl, ?_⟩
    cases width <;> simp

/-- The looked-up content decides as the first one does: they go together and the content is no
variant of them, or the content is neither. -/
theorem alike_iff_eq_iff : (second.Alike content ↔ first = content) ↔
    (second.Alike first → ¬content.Variant first) ∧
      (¬second.Alike first → first ≠ content ∧ ¬second.Alike content) := by
  constructor
  · intro same
    refine ⟨fun alike variant => variant.2 (same.mp (alike.trans variant.1)), fun apart => ?_⟩
    have other : first ≠ content := fun equal => apart (equal ▸ same.mpr equal)
    exact ⟨other, fun alike => other (same.mp alike)⟩
  · rintro ⟨together, apart⟩
    by_cases alike : second.Alike first
    · constructor
      · intro held
        by_contra other
        exact together alike ⟨alike.symm.trans held, other⟩
      · rintro rfl
        exact alike
    · exact ⟨fun held => absurd held (apart alike).2, fun held => absurd held (apart alike).1⟩

end HistoryContent

/-- Newest first, then by descending sequence. -/
def VisibleRow.latestKey (visible : VisibleRow) : ℤ ×ₗ ℤ :=
  toLex (-visible.row.createdAtMs, -visible.key.2)

namespace HistoryStore

variable (env : Environment) (store : HistoryStore)

/-- The row that `is_latest` looks at; `ties` says how equally recent rows stand. -/
def latestRow (ties : IterOrder VisibleRow) : Option VisibleRow :=
  (ranked VisibleRow.latestKey (ties.arrange store.visible)).head?

def isLatest (ties : IterOrder VisibleRow) (content : HistoryContent) : Bool :=
  let (text, image, _, _, _, filesJson) := encodeContent env content
  (store.latestRow ties).any fun latest =>
    latest.row.textPayload = text && latest.row.imagePayload = image &&
      latest.row.filesJson = filesJson

/-- The first record of `export_page` holds the content. -/
def NewestHolds (content : HistoryContent) : Prop :=
  ∃ events next event, store.exportPage env 0 1 = .ok (event :: events, next) ∧
    event.content = content

variable {env : Environment} {store : HistoryStore} {content : HistoryContent}

def contentOf (env : Environment) (visible : VisibleRow) : Except HistoryError HistoryContent :=
  (decodeRecord env visible.key visible.row visible.pinned).map (·.content)

variable {inserted : ImportedHistoryEvent → Prop}

variable {visible top : VisibleRow} {ties : IterOrder VisibleRow}

theorem Sound.exists_contentOf (sound : store.Sound env inserted) (roundTrips : env.RoundTrips)
    (shown : visible ∈ store.visible) :
    ∃ event, visible.row = encodeEvent env event ∧ contentOf env visible = .ok event.content := by
  rcases mem_visible.mp shown with ⟨found, flags⟩
  rcases sound.rows visible.key visible.row found with ⟨event, -, keyed, same⟩
  rw [flags] at same
  refine ⟨event, same, ?_⟩
  rw [contentOf, same, ← keyed]
  change (decodeRecord env event.eventId.key (encodeEvent env event) visible.pinned).map _ = _
  rw [decodeRecord_encodeEvent roundTrips]
  rfl

theorem alike_iff (roundTrips : env.RoundTrips) (event : ImportedHistoryEvent) :
    ((encodeEvent env event).textPayload = (encodeContent env content).1 ∧
      (encodeEvent env event).imagePayload = (encodeContent env content).2.1 ∧
        (encodeEvent env event).filesJson = (encodeContent env content).2.2.2.2.2) ↔
      event.content.Alike content := by
  have json : ∀ first second, env.filesToJson first = env.filesToJson second ↔ first = second := by
    intro first second
    constructor
    · intro same
      have decoded := roundTrips first
      rw [same, roundTrips second] at decoded
      cases decoded
      rfl
    · rintro rfl
      rfl
  cases held : event.content <;> cases content <;>
    simp [encodeEvent, encodeContent, HistoryContent.Alike, held, json]

theorem head_of_queryWindow {newest : VisibleRow} {rows : List VisibleRow} {limit : ℕ}
    {records : List HistoryRecord} {next : Option UInt64}
    (queried : queryWindow env (newest :: rows) 0 limit = .ok (records, next)) :
    ∃ record rest, decodeRecord env newest.key newest.row newest.pinned = .ok record ∧
      records = record :: rest := by
  simp only [queryWindow, bind_ok] at queried
  rcases queried with ⟨_, decoded, queried⟩
  have window : ((newest :: rows).drop (min (0 : UInt64).toNat i64Max)).take
      (max 1 (min limit 50) + 1) = newest :: rows.take (max 1 (min limit 50)) := rfl
  rw [window, queryRecords, mapM_cons, bind_ok] at decoded
  rcases decoded with ⟨record, isDecoded, decoded⟩
  rw [bind_ok] at decoded
  rcases decoded with ⟨others, -, same⟩
  cases same
  refine ⟨record, ?_⟩
  split at queried
  · cases queried
    refine ⟨others.take (max 1 (min limit 50) - 1), isDecoded, ?_⟩
    rw [take_cons (by omega)]
  · cases queried
    exact ⟨others, isDecoded, rfl⟩

theorem Sound.newestHolds_iff (sound : store.Sound env inserted) (roundTrips : env.RoundTrips)
    (content : HistoryContent) :
    store.NewestHolds env content ↔
      ∃ newest, store.exportRows.head? = some newest ∧ contentOf env newest = .ok content := by
  have decodes : Decodes env store.exportRows := fun visible member =>
    sound.decodes roundTrips visible ((mem_insertionSort _).mp member)
  rcases exists_queryWindow decodes 0 1 with ⟨⟨records, next⟩, queried⟩
  have exported : store.exportPage env 0 1 = .ok (records.map immutableEvent, next) := by
    rw [exportPage, queried]
    rfl
  rw [NewestHolds, exported]
  cases rows : store.exportRows with
  | nil =>
    rw [rows] at queried
    cases queried
    simp
  | cons newest =>
    rw [rows] at queried
    rcases head_of_queryWindow queried with ⟨record, _, decoded, rfl⟩
    have held : contentOf env newest = .ok record.content := by
      rw [contentOf, decoded]
      rfl
    simp [held, immutableEvent]

/-- A row that `is_latest` may look at. -/
def Candidate (store : HistoryStore) (top : VisibleRow) : Prop :=
  top ∈ store.visible ∧ ∀ other ∈ store.visible, top.latestKey ≤ other.latestKey

theorem candidate_of_latestRow (found : store.latestRow ties = some top) : store.Candidate top := by
  rcases head?_ranked found with ⟨listed, least⟩
  exact ⟨ties.mem_arrange.mp listed, fun other member => least other (ties.mem_arrange.mpr member)⟩

theorem exists_latestRow (ties : IterOrder VisibleRow) (shown : visible ∈ store.visible) :
    ∃ top, store.latestRow ties = some top := by
  have member : visible ∈ ranked VisibleRow.latestKey (ties.arrange store.visible) :=
    (ranked_perm _ _).mem_iff.mpr (ties.mem_arrange.mpr shown)
  rw [latestRow]
  cases ordered : ranked VisibleRow.latestKey (ties.arrange store.visible) with
  | nil =>
    rw [ordered] at member
    cases member
  | cons top => exact ⟨top, rfl⟩

theorem Candidate.latestRow (candidate : store.Candidate top) :
    store.latestRow (.prefer top) = some top := by
  have alone : store.visible.filter (· = top) = [top] := by
    rw [filter_eq, count_eq_one_of_mem store.nodup_visible candidate.1]
    rfl
  have arranged : (IterOrder.prefer top).arrange store.visible =
      top :: store.visible.filter (· ≠ top) := by
    change store.visible.filter (· = top) ++ store.visible.filter (· ≠ top) = _
    rw [alone]
    rfl
  rw [HistoryStore.latestRow, arranged]
  apply head?_ranked_cons
  intro other member
  exact candidate.2 other (mem_of_mem_filter member)

theorem Sound.isLatest_iff (sound : store.Sound env inserted) (roundTrips : env.RoundTrips)
    (content : HistoryContent) {held : HistoryContent} (found : store.latestRow ties = some top)
    (decoded : contentOf env top = .ok held) :
    store.isLatest env ties content = true ↔ held.Alike content := by
  rcases sound.exists_contentOf roundTrips (candidate_of_latestRow found).1 with ⟨event, row, same⟩
  rw [decoded] at same
  cases same
  rw [← alike_iff roundTrips event, isLatest, found, ← row]
  simp [and_assoc]

/-- What holds of the contents of the first exported row and of every row that `is_latest` may look
at, which are the same row unless another device has one of the same time and no smaller
sequence. -/
def OfNewest (env : Environment) (store : HistoryStore)
    (holds : HistoryContent → HistoryContent → Prop) : Prop :=
  ∀ newest top first second, store.exportRows.head? = some newest → store.Candidate top →
    contentOf env newest = .ok first → contentOf env top = .ok second → holds first second

/-- Where both rows hold the same but for the media type and the dimensions of an image, the content
is no such variant of it; elsewhere it is that of neither row. -/
def Decided (env : Environment) (store : HistoryStore) (content : HistoryContent) : Prop :=
  OfNewest env store fun first second =>
    (second.Alike first → ¬content.Variant first) ∧
      (¬second.Alike first → first ≠ content ∧ ¬second.Alike content)

theorem Sound.agrees_iff (sound : store.Sound env inserted) (roundTrips : env.RoundTrips)
    (content : HistoryContent) :
    (∀ ties, store.isLatest env ties content = true ↔ store.NewestHolds env content) ↔
      OfNewest env store fun first second => second.Alike content ↔ first = content := by
  have holds := sound.newestHolds_iff roundTrips content
  constructor
  · intro agrees newest top first _ isFirst candidate firstHeld secondHeld
    have looked := sound.isLatest_iff roundTrips content candidate.latestRow secondHeld
    have exported : store.NewestHolds env content ↔ first = content := by
      rw [holds, isFirst]
      simp [firstHeld]
    rw [← looked, ← exported]
    exact agrees (.prefer top)
  · intro decided ties
    have listed : ∀ row, row ∈ store.exportRows ↔ row ∈ store.visible :=
      fun _ => List.mem_insertionSort _
    cases first : store.exportRows with
    | nil =>
      have none : store.latestRow ties = none := by
        cases found : store.latestRow ties with
        | none => rfl
        | some top =>
          have member := (listed top).mpr (candidate_of_latestRow found).1
          rw [first] at member
          cases member
      rw [holds, first]
      simp [isLatest, none]
    | cons newest =>
      have isFirst : store.exportRows.head? = some newest := by rw [first]; rfl
      have shown := (listed newest).mp (by rw [first]; exact .head _)
      rcases exists_latestRow ties shown with ⟨top, found⟩
      have candidate := candidate_of_latestRow found
      rcases sound.exists_contentOf roundTrips shown with ⟨event, -, firstHeld⟩
      rcases sound.exists_contentOf roundTrips candidate.1 with ⟨other, -, secondHeld⟩
      have same : other.content.Alike content ↔ event.content = content :=
        decided newest top _ _ isFirst candidate firstHeld secondHeld
      rw [sound.isLatest_iff roundTrips content found secondHeld, holds, isFirst, same]
      simp [firstHeld]

/-- `is_latest` agrees with the first exported record on one content exactly if the two rows decide
it alike, and on all contents exactly if that record is no image and every row that `is_latest` may
look at holds what it holds. -/
theorem isLatest_iff_of_calls (roundTrips : env.RoundTrips) (calls : List Call) :
    let store := afterCalls env calls
    (∀ content, (∀ ties, store.isLatest env ties content = true ↔
      store.NewestHolds env content) ↔ store.Decided env content) ∧
    ((∀ content ties, store.isLatest env ties content = true ↔
      store.NewestHolds env content) ↔
        OfNewest env store fun first second => ¬first.IsImage ∧ second = first) := by
  intro store
  have agrees (content : HistoryContent) :
      (∀ ties, store.isLatest env ties content = true ↔ store.NewestHolds env content) ↔
        OfNewest env store fun first second => second.Alike content ↔ first = content :=
    (Sound.of_calls env calls).agrees_iff roundTrips content
  constructor
  · intro content
    rw [agrees content]
    simp only [Decided, HistoryContent.alike_iff_eq_iff]
  · constructor
    · intro all newest top first second isFirst candidate firstHeld secondHeld
      have same (content : HistoryContent) : second.Alike content ↔ first = content :=
        (agrees content).mp (all content) newest top first second isFirst candidate firstHeld
          secondHeld
      have alike : second.Alike first := (same first).mpr rfl
      have plain : ¬first.IsImage := by
        intro image
        rcases image.exists_variant with ⟨other, variant, differs⟩
        exact differs ((same other).mp (alike.trans variant))
      exact ⟨plain, (alike.symm.eq plain).symm⟩
    · intro plain content
      refine (agrees content).mpr fun newest top first second isFirst candidate firstHeld
        secondHeld => ?_
      rcases plain newest top first second isFirst candidate firstHeld secondHeld with
        ⟨plain, rfl⟩
      exact ⟨fun alike => alike.eq plain, fun held => held ▸ .refl _⟩

theorem isLatest_iff_mergeOld :
    (∀ ties, (afterCalls unaryEnvironment [mergeOld]).isLatest unaryEnvironment ties (.text "abc") =
        true ↔ (afterCalls unaryEnvironment [mergeOld]).NewestHolds unaryEnvironment
          (.text "abc")) ∧
      (afterCalls unaryEnvironment [mergeOld]).isLatest unaryEnvironment (.asStored _)
        (.text "abc") = true := by
  have shown : (afterCalls unaryEnvironment [mergeOld]).visible =
      [⟨oldKey, encodeEvent unaryEnvironment (textEvent "a" 1 0), false⟩] := by decide +kernel
  refine ⟨((isLatest_iff_of_calls unaryEnvironment_roundTrips [mergeOld]).1 _).mpr ?_,
    by decide +kernel⟩
  intro _ _ _ _ isFirst candidate firstHeld secondHeld
  have onlyTop := candidate.1
  rw [shown, List.mem_singleton] at onlyTop
  subst onlyTop
  cases isFirst
  cases firstHeld
  cases secondHeld
  exact ⟨fun _ variant => variant.2 rfl, fun apart => absurd (.refl _) apart⟩

/-- An image of two pixels, one above the other. -/
def tallImage : ImportedHistoryEvent where
  eventId := ⟨"a", 1⟩
  createdAtMs := 5
  originLabel := none
  content := .image (some (List.replicate 8 0)) (some "image/x-rgba8") (some 1) (some 2)

def wideContent : HistoryContent :=
  .image (some (List.replicate 8 0)) (some "image/x-rgba8") (some 2) (some 1)

def mergeTall : List Call := [.mergeImported (.asStored _) tallImage]

def mergeTied : List Call :=
  [.mergeImported (.asStored _) (textEvent "a" 1 5), .mergeImported (.asStored _)
    { textEvent "b" 2 5 with content := .text "later" }]

theorem isLatest_disagrees :
    ((afterCalls unaryEnvironment mergeTall).isLatest unaryEnvironment (.asStored _) wideContent =
        true ∧ ¬(afterCalls unaryEnvironment mergeTall).NewestHolds unaryEnvironment wideContent) ∧
      ((afterCalls unaryEnvironment mergeTied).isLatest unaryEnvironment (.asStored _)
          (.text "abc") = false ∧
        (afterCalls unaryEnvironment mergeTied).NewestHolds unaryEnvironment (.text "abc")) := by
  have tall : ((afterCalls unaryEnvironment mergeTall).exportPage unaryEnvironment 0 1).toOption =
      some ([tallImage], none) := by decide +kernel
  have tied : ((afterCalls unaryEnvironment mergeTied).exportPage unaryEnvironment 0 1).toOption =
      some ([textEvent "a" 1 5], some 1) := by decide +kernel
  refine ⟨⟨by decide +kernel, ?_⟩, by decide +kernel, ?_⟩
  · rintro ⟨_, _, _, exported, held⟩
    rw [exported] at tall
    cases tall
    exact absurd held (by decide)
  · cases exported : (afterCalls unaryEnvironment mergeTied).exportPage unaryEnvironment 0 1 with
    | error =>
      rw [exported] at tied
      cases tied
    | ok =>
      rw [exported] at tied
      cases tied
      exact ⟨[], some 1, textEvent "a" 1 5, exported, rfl⟩

end HistoryStore

end Syntra.Store
