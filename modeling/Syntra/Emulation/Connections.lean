import Mathlib.Data.Multiset.ZeroCons
import Syntra.Emulation.Listener
import Syntra.StateMachine.Run

/-!
# The table of connections

A connection is found in the table by its address, and so it is taken out of it when it ends. The
table therefore names the connections that are read only while an older connection of the same
address never outlasts a newer one.
-/

namespace Syntra.Emulation

open ByteFormat StateMachine Tables List

/-- What happens at the listener. -/
inductive ListenerInput (Ip : Type)
  | verify (authorized : Table String String) (addr : SocketAddr Ip) (fingerprint : String)
  | accept (conn : Connection Ip)
  | reject
  | abandon (conn : Connection Ip)
  | receive (conn : Connection Ip) (datagram : Bytes)
  | disconnect (conn : Connection Ip)
  | take

namespace SyntraListener

variable {Ip : Type} [DecidableEq Ip]

/-- The connections that `reply` sends on. -/
def replies (listener : SyntraListener Ip) (addr : SocketAddr Ip) : List (Connection Ip) :=
  listener.conns.filter fun conn => conn.addr = addr

def step (listener : SyntraListener Ip) :
    ListenerInput Ip → SyntraListener Ip × List (ListenEvent Ip)
  | .verify authorized addr fingerprint =>
    (listener.verifyPeerCertificate authorized addr fingerprint, [])
  | .accept conn => (if conn ∈ listener.verified then listener.accept conn else listener, [])
  | .reject => (listener.reject, [])
  | .abandon conn => (listener.abandon conn, [])
  | .receive conn datagram =>
    (if conn ∈ listener.readers then listener.receive conn datagram else listener, [])
  | .disconnect conn =>
    (if conn ∈ listener.readers then listener.disconnect conn else listener, [])
  | .take => (listener.take, listener.next.toList)

/-- The table holds the connections that are read, and the address of a message that is taken leads
to its connection. -/
structure Named (listener : SyntraListener Ip) (input : ListenerInput Ip) : Prop where
  conns : (listener.step input).1.conns.Perm (listener.step input).1.readers
  message : input = .take → ∀ conn event, listener.next = some (.msg conn event) →
    listener.replies conn.addr = [conn] ∧
      listener.certificateFingerprint conn.addr = some conn.fingerprint

/-- A connection that ends is the oldest of its address, and a message is taken while its connection
is the only one. -/
def Alone (listener : SyntraListener Ip) : ListenerInput Ip → Prop
  | .disconnect conn => conn ∈ listener.readers →
    listener.conns.find? (fun other => other.addr = conn.addr) = some conn
  | .take => ∀ conn event, listener.next = some (.msg conn event) →
    (listener.readers.filter fun other => other.addr = conn.addr) = [conn]
  | _ => True

theorem perm_eraseP {Item : Type} {p : Item → Bool} {list : List Item} {item : Item}
    (found : list.find? p = some item) : list.Perm (item :: list.eraseP p) := by
  induction list with
  | nil => cases found
  | cons first _ ih =>
    rw [find?_cons] at found
    cases holds : p first with
    | true =>
      rw [holds] at found
      cases found
      rw [eraseP_cons_of_pos holds]
    | false =>
      rw [holds] at found
      rw [eraseP_cons_of_neg (Bool.not_eq_true _ ▸ holds)]
      exact ((ih found).cons first).trans (.swap item first _)

variable {listener : SyntraListener Ip} {conn : Connection Ip}

variable (same : listener.conns.Perm listener.readers)
include same

theorem disconnect_perm_iff (reads : conn ∈ listener.readers) :
    (listener.disconnect conn).conns.Perm (listener.disconnect conn).readers ↔
      listener.conns.find? (fun other => other.addr = conn.addr) = some conn := by
  have known : conn ∈ listener.conns := same.mem_iff.mpr reads
  obtain ⟨first, found⟩ : ∃ first,
      listener.conns.find? (fun other => other.addr = conn.addr) = some first :=
    Option.isSome_iff_exists.mp (find?_isSome.mpr ⟨conn, known, decide_eq_true rfl⟩)
  have removed := perm_eraseP found
  have ended : listener.conns.Perm (conn :: listener.readers.erase conn) :=
    same.trans (perm_cons_erase reads)
  rw [found, Option.some.injEq]
  constructor
  · intro still
    let rest : Multiset (Connection Ip) := (listener.disconnect conn).conns
    have both : first ::ₘ rest = conn ::ₘ rest :=
      Multiset.coe_eq_coe.mpr ((removed.symm.trans ended).trans (still.symm.cons conn))
    exact (Multiset.cons_inj_left rest).mp both
  · rintro rfl
    exact (perm_cons first).mp (removed.symm.trans ended)

theorem replies_iff :
    listener.replies conn.addr = [conn] ∧
        listener.certificateFingerprint conn.addr = some conn.fingerprint ↔
      (listener.readers.filter fun other => other.addr = conn.addr) = [conn] := by
  have both := same.filter fun other => other.addr = conn.addr
  constructor
  · rintro ⟨only, -⟩
    exact perm_singleton.mp (both.symm.trans (.of_eq only))
  · intro only
    have replied : listener.replies conn.addr = [conn] :=
      perm_singleton.mp (both.trans (.of_eq only))
    refine ⟨replied, ?_⟩
    rw [certificateFingerprint, ← head?_filter]
    exact congrArg (fun list => (list.head?).map Connection.fingerprint) replied

theorem named_step_iff {input : ListenerInput Ip} :
    listener.Named input ↔ listener.Alone input := by
  cases input with
  | verify =>
    refine iff_of_true ⟨?_, fun other => absurd other (by simp)⟩ trivial
    unfold step verifyPeerCertificate
    dsimp only
    split <;> exact same
  | accept other =>
    refine iff_of_true ⟨?_, fun other => absurd other (by simp)⟩ trivial
    unfold step
    dsimp only
    split
    · exact (perm_append_singleton _ _).trans (same.cons other)
    · exact same
  | reject =>
    refine iff_of_true ⟨?_, fun other => absurd other (by simp)⟩ trivial
    unfold step reject
    dsimp only
    split <;> exact same
  | abandon other => exact iff_of_true ⟨same, fun other => absurd other (by simp)⟩ trivial
  | receive other =>
    refine iff_of_true ⟨?_, fun other => absurd other (by simp)⟩ trivial
    unfold step receive
    dsimp only
    split
    · split <;> exact same
    · exact same
  | disconnect other =>
    have ended : (listener.step (.disconnect other)).1.conns.Perm
        (listener.step (.disconnect other)).1.readers ↔ listener.Alone (.disconnect other) := by
      by_cases reads : other ∈ listener.readers
      · simp only [step, Alone, reads, true_imp_iff]
        exact disconnect_perm_iff same reads
      · simp only [step, Alone, reads, false_imp_iff, iff_true]
        exact same
    exact ⟨fun named => ended.mp named.conns,
      fun alone => ⟨ended.mpr alone, fun other => absurd other (by simp)⟩⟩
  | take =>
    constructor
    · exact fun named conn event next => (replies_iff same).mp (named.message rfl conn event next)
    · intro alone
      exact ⟨same, fun _ conn event next => (replies_iff same).mpr (alone conn event next)⟩

omit same

/-- Connections go by the names of their own certificates just if no two share an address. -/
theorem named_iff (inputs : List (ListenerInput Ip)) :
    (∀ listener input, Meets step new inputs listener input → listener.Named input) ↔
      ∀ listener input, Meets step new inputs listener input → listener.Alone input :=
  forall_meets_iff (fun _ _ same => named_step_iff same) (fun _ _ named => named.conns) .nil

/-- A peer has connected again from its address, and the second connection ends first. -/
theorem second_ends_first :
    let authorized : Table String String := (∅ : Table String String).insert "key" "peer"
    let addr : SocketAddr ℕ := ⟨1, 4242⟩
    ¬∀ listener input, Meets step new [.verify authorized addr "key", .accept ⟨0, addr, "key"⟩,
        .verify authorized addr "key", .accept ⟨1, addr, "key"⟩, .disconnect ⟨1, addr, "key"⟩]
      listener input → listener.Named input := by
  intro _ _ named
  have ended := (named _ _ (Meets.last _ [_, _, _, _] _)).conns
  exact absurd ended (by decide)

end SyntraListener

end Syntra.Emulation
