import Mathlib.Data.List.Basic
import Syntra.ByteFormat.BigEndian

/-!
# Reading lines from a plugin

The daemon reads what a plugin writes to its error output with `BoundedLines` (`supervisor.rs`), and
both sides read frames with `read_messages` (`syntra-plugin-api/src/lib.rs`). Neither knows where a
read ends.
-/

namespace Syntra.Plugins

open ByteFormat List

def newline : UInt8 := 10

/-- The lines of a stream, each with whether a newline ends it. -/
def lines (stream : Bytes) : List (Bytes × Bool) :=
  let pieces := stream.splitOn newline
  pieces.dropLast.map (·, true) ++
    match pieces.getLast? with
    | some last => if last = [] then [] else [(last, false)]
    | none => []

theorem lines_cons {first : Bytes} (unended : newline ∉ first) (rest : Bytes) :
    lines (first ++ newline :: rest) = (first, true) :: lines rest := by
  have some_ := splitOn_ne_nil newline rest
  rw [lines, splitOn_append_cons_self_of_not_mem unended, lines]
  cases pieces : rest.splitOn newline with
  | nil => exact absurd pieces some_
  | cons piece pieces => rfl

theorem lines_last {last : Bytes} (unended : newline ∉ last) :
    lines last = if last = [] then [] else [(last, false)] := by
  simp [lines, splitOn_eq_singleton unended]

section

variable {Held : Type} {append close : Held → Bytes → Held}

variable (append close) in
/-- Reads on to the end of the line: `append` takes what comes before the end of a read, and `close`
what ends the line. The line is not closed when the stream ends first, with a read of no bytes. -/
def scan (held : Held) (available : Bytes) (reader : List Bytes) :
    Held × Bool × Bytes × List Bytes :=
  if newline ∈ available then
    (close held (available.takeWhile (· ≠ newline)), true,
      (available.dropWhile (· ≠ newline)).tail, reader)
  else
    match reader with
    | [] => (append held available, false, [], [])
    | chunk :: reader => scan (append held available) chunk reader

variable {available : Bytes} {reader : List Bytes}

theorem scan_ends (joins : ∀ held first second,
      append (append held first) second = append held (first ++ second)) (held : Held)
    (unended : newline ∉ available ++ reader.flatten) :
    scan append close held available reader =
      (append held (available ++ reader.flatten), false, [], []) := by
  induction reader generalizing held available with
  | nil =>
    rw [flatten_nil, append_nil] at unended ⊢
    rw [scan, if_neg unended]
  | cons chunk reader ih =>
    rw [flatten_cons, mem_append, not_or] at unended
    rw [scan, if_neg unended.1, ih _ unended.2, joins, flatten_cons]

theorem scan_closes (closes : ∀ held first second,
      close (append held first) second = close held (first ++ second)) (held : Held)
    {first rest : Bytes} (unended : newline ∉ first)
    (stream : available ++ reader.flatten = first ++ newline :: rest) :
    ∃ later more, scan append close held available reader =
      (close held first, true, later, more) ∧ later ++ more.flatten = rest := by
  have found {available after first rest : Bytes} (here : newline ∈ available)
      (unended : newline ∉ first) (stream : available ++ after = first ++ newline :: rest) :
      available.takeWhile (· ≠ newline) = first ∧
        (available.dropWhile (· ≠ newline)).tail ++ after = rest := by
    rcases eq_append_cons_of_mem here with ⟨before, later, rfl, without⟩
    rw [append_assoc, cons_append] at stream
    have same := congrArg (splitOn newline) stream
    rw [splitOn_append_cons_self_of_not_mem without,
      splitOn_append_cons_self_of_not_mem unended] at same
    cases (cons.inj same).1
    cases append_cancel_left stream
    have plain : ∀ byte ∈ first, decide (byte ≠ newline) = true :=
      fun _ member => decide_eq_true fun same => without (same ▸ member)
    rw [takeWhile_append_of_pos plain, dropWhile_append_of_pos plain]
    simp
  induction reader generalizing held available first with
  | nil =>
    have here : newline ∈ available := by
      rw [flatten_nil, append_nil] at stream
      simp [stream]
    rcases found here unended stream with ⟨same, tail⟩
    rw [scan, if_pos here, same]
    exact ⟨_, _, rfl, tail⟩
  | cons chunk reader ih =>
    rw [scan]
    by_cases here : newline ∈ available
    · rcases found here unended stream with ⟨same, tail⟩
      rw [if_pos here, same]
      exact ⟨_, _, rfl, tail⟩
    · rw [if_neg here]
      rcases append_eq_append_iff.mp stream with ⟨first, rfl, within⟩ | ⟨more, rfl, within⟩
      · rw [← closes]
        exact ih _ (fun member => unended (mem_append_right _ member)) within
      · cases more with
        | nil =>
          have read := ih (append held first) not_mem_nil within.symm
          rw [append_nil]
          rwa [closes, append_nil] at read
        | cons byte more =>
          cases within
          exact absurd (mem_append_right first (mem_cons_self ..)) here

theorem scan_lines (joins : ∀ held first second,
      append (append held first) second = append held (first ++ second))
    (closes : ∀ held first second,
      close (append held first) second = close held (first ++ second)) (held : Held)
    (available : Bytes) (reader : List Bytes) :
    ∃ line ended later more, scan append close held available reader =
        ((if ended then close else append) held line, ended, later, more) ∧
      lines (available ++ reader.flatten) =
        (if ended = false ∧ line = [] then [] else (line, ended) :: lines (later ++ more.flatten)) ∧
      (ended = false → later ++ more.flatten = []) := by
  by_cases ends : newline ∈ available ++ reader.flatten
  · rcases eq_append_cons_of_mem ends with ⟨first, rest, whole, unended⟩
    rcases scan_closes closes held unended whole with ⟨later, more, found, tail⟩
    exact ⟨first, true, later, more, found, by simp [whole, lines_cons unended, tail], by simp⟩
  · refine ⟨_, false, [], [], scan_ends joins held ends, ?_, fun _ => rfl⟩
    rw [lines_last ends]
    simp [lines_last not_mem_nil]

end

def answer {State Line : Type} (next : State → Option Line × State) (state : State) (calls : ℕ) :
    Option Line :=
  (next ((fun state => (next state).2)^[calls] state)).1

theorem answer_eq {State Line : Type} {next : State → Option Line × State} {idle : State → Prop}
    {stream : State → Bytes} {read : Bytes × Bool → Line}
    (reads : ∀ state, idle state → (next state).1 = (lines (stream state)).head?.map read ∧
      idle (next state).2 ∧ lines (stream (next state).2) = (lines (stream state)).tail)
    {state : State} (start : idle state) (calls : ℕ) :
    answer next state calls = (lines (stream state))[calls]?.map read := by
  induction calls generalizing state with
  | zero => exact (reads state start).1.trans (by rw [head?_eq_getElem?])
  | succ calls ih =>
    rcases reads state start with ⟨_, later, rest⟩
    exact (ih later).trans (by rw [rest, getElem?_tail])

/-- The first bytes of a line. -/
@[ext]
structure HeldLine (limit : ℕ) where
  bytes : Bytes
  overflowed : Bool
  bounded : bytes.length ≤ limit

namespace HeldLine

variable {limit : ℕ}

def empty : HeldLine limit := ⟨[], false, limit.zero_le⟩

/-- `append_bounded` -/
def appendBounded (line : HeldLine limit) (bytes : Bytes) : HeldLine limit where
  bytes := line.bytes ++ bytes.take (limit - line.bytes.length)
  overflowed := limit - line.bytes.length < bytes.length || line.overflowed
  bounded := by
    have := line.bounded
    simp
    omega

theorem appendBounded_append (line : HeldLine limit) (first second : Bytes) :
    (line.appendBounded first).appendBounded second = line.appendBounded (first ++ second) := by
  have bounded := line.bounded
  refine HeldLine.ext ?_ ?_
  · simp only [appendBounded, append_assoc, length_append, length_take, take_append]
    congr 3
    omega
  · rw [Bool.eq_iff_iff]
    simp only [appendBounded, length_append, length_take, Bool.or_eq_true, decide_eq_true_eq,
      ← or_assoc]
    refine or_congr ?_ Iff.rfl
    omega

theorem appendBounded_empty (text : Bytes) :
    (empty : HeldLine limit).appendBounded text =
      ⟨text.take limit, limit < text.length, length_take_le ..⟩ := by
  simp [appendBounded, empty]

end HeldLine

/-- `eof` is set once a read has returned nothing or failed; nothing is read after it. -/
structure BoundedLines (limit : ℕ) where
  reader : List Bytes
  available : Bytes
  line : HeldLine limit
  eof : Bool

namespace BoundedLines

open HeldLine

variable {limit : ℕ}

def new (reader : List Bytes) : BoundedLines limit := ⟨reader, [], .empty, false⟩

variable (lossy : Bytes → String)

def finish (self : BoundedLines limit) : Option String × BoundedLines limit :=
  if self.line.overflowed then
    (some "[line too long]", { self with line := .empty })
  else if self.line.bytes = [] ∧ self.eof then
    (none, self)
  else
    (some (lossy self.line.bytes), { self with line := .empty })

def nextLine (self : BoundedLines limit) : Option String × BoundedLines limit :=
  let (line, ended, available, reader) :=
    scan HeldLine.appendBounded HeldLine.appendBounded self.line self.available self.reader
  finish lossy ⟨reader, available, line, self.eof || !ended⟩

def stream (self : BoundedLines limit) : Bytes := self.available ++ self.reader.flatten

/-- Between two lines nothing is held, and after the end there is nothing left. -/
def Idle (self : BoundedLines limit) : Prop := self.line = .empty ∧ (self.eof → self.stream = [])

theorem nextLine_reads (self : BoundedLines limit) (idle : self.Idle) :
    (nextLine lossy self).1 = (lines self.stream).head?.map (fun (line, _) =>
        if limit < line.length then "[line too long]" else lossy line) ∧
      (nextLine lossy self).2.Idle ∧ lines (nextLine lossy self).2.stream =
        (lines self.stream).tail := by
  rcases self with ⟨reader, available, _, eof⟩
  rcases idle with ⟨rfl, ends⟩
  rcases scan_lines appendBounded_append appendBounded_append (.empty : HeldLine limit)
    available reader with ⟨line, ended, later, more, found, whole, exhausted⟩
  have next : nextLine lossy ⟨reader, available, (.empty : HeldLine limit), eof⟩ =
      finish lossy ⟨more, later, ⟨line.take limit, limit < line.length, length_take_le ..⟩,
        eof || !ended⟩ := by
    rw [← appendBounded_empty]
    unfold nextLine
    rw [found, ite_self]
  unfold stream at *
  dsimp only at ends ⊢
  rw [next, whole, finish]
  cases ended with
  | false =>
    have nothing := exhausted rfl
    by_cases long : limit < line.length
    · simp [long, Idle, stream, nothing, ne_nil_of_length_pos (Nat.zero_lt_of_lt long), lines_last]
    · by_cases none : line = []
      · simp [none, Idle, stream, nothing, HeldLine.empty, lines_last]
      · simp [long, none, Idle, stream, nothing, take_of_length_le (Nat.le_of_not_lt long),
          lines_last]
  | true =>
    have more_ : eof = false := by
      by_contra closed
      rw [ends (eq_true_of_ne_false closed), lines_last not_mem_nil] at whole
      simp at whole
    by_cases long : limit < line.length
    · simp [long, more_, Idle]
    · simp [long, more_, Idle, take_of_length_le (Nat.le_of_not_lt long)]

end BoundedLines

def maxFrame : ℕ := 2 * 1024 * 1024

/-- Why a line cannot be read. -/
inductive FrameError (Other : Type)
  | frameTooLong
  | truncatedFrame
  | other (error : Other)

/-- What `read_messages` does with the bytes up to the end of a read, or up to a newline. -/
def HeldLine.appendFrame (line : HeldLine (maxFrame + 1)) (bytes : Bytes) :
    HeldLine (maxFrame + 1) :=
  if line.overflowed then line
  else
    let appended := line.bytes ++ bytes.take (maxFrame + 1 - line.bytes.length)
    { bytes := appended
      overflowed := maxFrame < appended.length
      bounded := by
        have := line.bounded
        simp [appended]
        omega }

def HeldLine.closeFrame (line : HeldLine (maxFrame + 1)) (bytes : Bytes) :
    HeldLine (maxFrame + 1) :=
  line.appendFrame (bytes ++ [newline])

def trimEnd (line : Bytes) : Bytes :=
  let line := if line.getLast? = some newline then line.dropLast else line
  if line.getLast? = some 13 then line.dropLast else line

section

variable {Message Other : Type} (decode : Bytes → Except (FrameError Other) Message)

/-- One turn of the iterator, over what the reader has buffered and what it will still read. -/
def readMessage (reader : Bytes × List Bytes) :
    Option (Except (FrameError Other) Message) × Bytes × List Bytes :=
  let (line, ended, reader) :=
    scan HeldLine.appendFrame HeldLine.closeFrame .empty reader.1 reader.2
  let answer :=
    if line.overflowed then some (.error .frameTooLong)
    else if ended then some (decode (trimEnd line.bytes))
    else if line.bytes = [] then none
    else some (.error .truncatedFrame)
  (answer, reader)

def frame : Bytes × Bool → Except (FrameError Other) Message
  | (line, true) =>
    if maxFrame < line.length + 1 then .error .frameTooLong
    else decode (if line.getLast? = some 13 then line.dropLast else line)
  | (line, false) => .error <| if maxFrame < line.length then .frameTooLong else .truncatedFrame

theorem appendFrame_append (line : HeldLine (maxFrame + 1)) (first second : Bytes) :
    (line.appendFrame first).appendFrame second = line.appendFrame (first ++ second) := by
  have bounded := line.bounded
  by_cases long : line.overflowed = true
  · simp [HeldLine.appendFrame, long]
  · simp only [HeldLine.appendFrame, long, Bool.false_eq_true, if_false, decide_eq_true_eq,
      length_append, length_take]
    split
    · rename_i full
      have filled : maxFrame + 1 - line.bytes.length ≤ first.length := by omega
      refine HeldLine.ext ?_ ?_
      · simp [take_append_of_le_length filled]
      · simp only [decide_eq_decide]
        omega
    · rename_i room
      have fits : first.length ≤ maxFrame + 1 - line.bytes.length := by omega
      refine HeldLine.ext ?_ ?_
      · simp only [take_of_length_le fits, take_append, append_assoc]
        congr 3
        omega
      · simp only [decide_eq_decide]
        omega

theorem closeFrame_append (line : HeldLine (maxFrame + 1)) (first second : Bytes) :
    (line.appendFrame first).closeFrame second = line.closeFrame (first ++ second) := by
  rw [HeldLine.closeFrame, appendFrame_append, ← append_assoc, HeldLine.closeFrame]

theorem appendFrame_empty (text : Bytes) :
    (HeldLine.empty : HeldLine (maxFrame + 1)).appendFrame text =
      ⟨text.take (maxFrame + 1), maxFrame < text.length, length_take_le ..⟩ := by
  refine HeldLine.ext (by simp [HeldLine.appendFrame, HeldLine.empty]) ?_
  simp only [HeldLine.appendFrame, HeldLine.empty, Bool.false_eq_true, if_false, nil_append,
    length_nil, length_take, decide_eq_decide]
  omega

def unread (reader : Bytes × List Bytes) : Bytes := reader.1 ++ reader.2.flatten

theorem readMessage_reads (reader : Bytes × List Bytes) :
    (readMessage decode reader).1 = (lines (unread reader)).head?.map (frame decode) ∧ True ∧
      lines (unread (readMessage decode reader).2) = (lines (unread reader)).tail := by
  unfold unread
  rcases reader with ⟨available, reader⟩
  rcases scan_lines appendFrame_append closeFrame_append .empty available reader with
    ⟨line, ended, later, more, found, whole, exhausted⟩
  cases ended with
  | false =>
    rw [if_neg Bool.false_ne_true, appendFrame_empty] at found
    simp only [readMessage, found, whole]
    by_cases long : maxFrame < line.length
    · simp [long, frame, ne_nil_of_length_pos (Nat.zero_lt_of_lt long)]
    · by_cases none : line = []
      · simp [none, exhausted rfl, lines_last]
      · simp [long, none, frame, take_of_length_le (Nat.le_succ_of_le (Nat.le_of_not_lt long))]
  | true =>
    rw [if_pos rfl, HeldLine.closeFrame, appendFrame_empty] at found
    simp only [readMessage, found, whole]
    by_cases long : maxFrame < line.length + 1
    · simp [long, frame]
    · have fits : (line ++ [newline]).length ≤ maxFrame + 1 := by
        simp
        omega
      simp [long, frame, take_of_length_le fits, trimEnd]

end

/-- Both readers read the lines of the stream, however it is split into reads, and neither holds
more of a line than its limit and one byte. -/
theorem readers_read_lines (reads : List Bytes) :
    (∀ (limit : ℕ) (lossy : Bytes → String) (calls : ℕ),
      answer (BoundedLines.nextLine lossy) (.new reads : BoundedLines limit) calls =
        (lines reads.flatten)[calls]?.map fun (line, _) =>
          if limit < line.length then "[line too long]" else lossy line) ∧
    (∀ (Message Other : Type) (decode : Bytes → Except (FrameError Other) Message) (calls : ℕ),
      answer (readMessage decode) ([], reads) calls =
        (lines reads.flatten)[calls]?.map (frame decode)) ∧
    (∀ (limit : ℕ) (line : HeldLine limit) (bytes : Bytes),
      (line.appendBounded bytes).bytes.length ≤ limit) ∧
    ∀ (line : HeldLine (maxFrame + 1)) (bytes : Bytes),
      (line.appendFrame bytes).bytes.length ≤ maxFrame + 1 :=
  ⟨fun _ lossy => answer_eq (BoundedLines.nextLine_reads lossy) ⟨rfl, nofun⟩,
    fun _ _ decode => @answer_eq _ _ _ (fun _ => True) unread (frame decode)
      (fun reader _ => readMessage_reads decode reader) ([], reads) trivial,
    fun _ line bytes => (line.appendBounded bytes).bounded,
    fun line bytes => (line.appendFrame bytes).bounded⟩

end Syntra.Plugins
