import Mathlib.Tactic.Lemma
import TrellisTagger.Proofs.Table
import TrellisTagger.State.Interner

/-!
# One copy for each state

An interner is asked for copies of states, is cleared now and then, and copies are made beside it,
which may be handed in later. So equal states can have several copies at a time. Still the interner
hands out one only, as long as it is not cleared.

## Main definitions

* `TrellisTagger.Interner.Request` — what an interner can be asked for.
* `TrellisTagger.Interner.Event`, `TrellisTagger.Interner.Session` — what has come about so far.
* `TrellisTagger.Interner.Session.run` — the session after some operations.
* `TrellisTagger.Interner.sinceClear` — the copies handed out since the interner was cleared.
* `TrellisTagger.Interner.Session.IsSound` — the copies held are those handed out since then, and no
  two copies share a number.

## Main results

* `TrellisTagger.Interner.Session.IsSound.give` — handing out a copy keeps a session sound.
* `TrellisTagger.Interner.Session.isSound_run` — every session is sound.
* `TrellisTagger.Interner.Session.run_canonical` — hence the interner hands out one copy for each
  state.

## Design

A session keeps everything that has come about. What the interner holds is compared with this record
and never with the tables of the interner themselves.
-/

namespace TrellisTagger.Interner

/-! ### Sessions -/

/-- What an interner can be asked for. A copy that is handed in is named by its place among the
copies that have come about. -/
inductive Request where
  /-- The copy held for the state of a copy that is handed in. -/
  | intern (copy : Nat)
  /-- The start state. -/
  | start
  /-- The stop state of a sentence of a given length. -/
  | stop (length : Int)
  /-- The state with two tags and a position. -/
  | build (beforePrevious previous : Tag) (position : Int)
  /-- The state that follows the state of a copy under a tag. -/
  | next (copy : Nat) (tag : Tag)
  /-- The state that came before the state of a copy, given a tag. -/
  | prior (copy : Nat) (tag : Tag)

/-- What can be done while there is an interner. -/
inductive Operation where
  /-- Make a copy of a state beside the interner. -/
  | make (state : State)
  /-- Ask the interner for a copy. -/
  | ask (r : Request)
  /-- Clear the interner. -/
  | clear

/-- What comes about. -/
inductive Event where
  /-- A copy has been made beside the interner. -/
  | made (c : Copy)
  /-- The interner has handed out a copy. -/
  | given (c : Copy)
  /-- The interner has been cleared. -/
  | cleared
  deriving DecidableEq

/-- The copy that comes about. -/
def Event.copy? : Event → Option Copy
  | made c | given c => some c
  | cleared => none

/-- An interner with what has come about since it was new. -/
structure Session where
  /-- The interner. -/
  interner : Interner := {}
  /-- What has come about, in order. -/
  events : List Event := []

/-- The copies that were handed out since the interner was cleared, or was new. -/
def sinceClear (events : List Event) : List Copy :=
  events.foldl
    (fun given e =>
      match e with
      | .made _ => given
      | .given c => given ++ [c]
      | .cleared => [])
    []

namespace Session

/-- The copies that have come about. -/
def copies (s : Session) : List Copy := s.events.filterMap Event.copy?

/-- The state that a request describes. A request that names no copy describes none. -/
def described? (s : Session) : Request → Option State
  | .intern k => s.copies[k]?.map Copy.state
  | .start => some State.start
  | .stop n => some (State.stop n)
  | .build a b i => some ⟨a, b, i⟩
  | .next k tag => s.copies[k]?.map fun c => c.state.next tag
  | .prior k tag => s.copies[k]?.map fun c => c.state.prior tag

/-- The copy that the interner hands out on a request, and the interner afterwards. Only a copy that
is handed in can become the one held; for all other requests a new copy is made. -/
def answer? (s : Session) (r : Request) : Option (Copy × Interner) :=
  match r with
  | .intern k => s.copies[k]?.map s.interner.intern
  | r => (s.described? r).map s.interner.request

/-- The session after an operation. A request that names no copy cannot be made. -/
def perform (s : Session) : Operation → Session
  | .make state =>
    let (c, interner) := s.interner.make state
    ⟨interner, s.events ++ [.made c]⟩
  | .ask r =>
    match s.answer? r with
    | some (c, interner) => ⟨interner, s.events ++ [.given c]⟩
    | none => s
  | .clear => ⟨s.interner.clear, s.events ++ [.cleared]⟩

/-- The session after several operations with a new interner. -/
def run (ops : List Operation) : Session := ops.foldl perform {}

end Session

/-! ### What was handed out since a clearing -/

/-- A copy that the interner has not handed out does not count as one. -/
lemma sinceClear_made (events : List Event) (c : Copy) :
    sinceClear (events ++ [.made c]) = sinceClear events := List.foldl_concat _ _ _ _

/-- A copy that is handed out is the last one. -/
lemma sinceClear_given (events : List Event) (c : Copy) :
    sinceClear (events ++ [.given c]) = sinceClear events ++ [c] := List.foldl_concat _ _ _ _

/-- After a clearing nothing has been handed out since. -/
lemma sinceClear_cleared (events : List Event) :
    sinceClear (events ++ [.cleared]) = [] := List.foldl_concat _ _ _ _

/-- A copy was handed out since the interner was cleared just if no clearing came after it. -/
lemma mem_sinceClear {events : List Event} {c : Copy} :
    c ∈ sinceClear events ↔
      ∃ earlier later, events = earlier ++ .given c :: later ∧ .cleared ∉ later := by
  induction events using List.reverseRecOn with
  | nil => simp [sinceClear]
  | append_singleton events e ih =>
    -- the last event is the one that hands out the copy, or comes after it
    have hsplit :
        (∃ earlier later, events ++ [e] = earlier ++ .given c :: later ∧ .cleared ∉ later) ↔
        e = .given c ∨ e ≠ .cleared ∧
          ∃ earlier later, events = earlier ++ .given c :: later ∧ .cleared ∉ later := by
      constructor
      · rintro ⟨earlier, later, heq, hlater⟩
        rcases List.eq_nil_or_concat later with rfl | ⟨later, last, rfl⟩
        · left
          exact (List.append_inj' heq rfl).2 |> List.singleton_inj.1
        · right
          rw [List.concat_eq_append] at heq hlater
          rw [← List.cons_append, ← List.append_assoc] at heq
          obtain ⟨hinit, hlast⟩ := List.append_inj' heq rfl
          obtain rfl := List.singleton_inj.1 hlast
          simp only [List.mem_append, List.mem_singleton, not_or] at hlater
          exact ⟨Ne.symm hlater.2, earlier, later, hinit, hlater.1⟩
      · rintro (rfl | ⟨hne, earlier, later, rfl, hlater⟩)
        · exact ⟨events, [], rfl, List.not_mem_nil⟩
        · refine ⟨earlier, later ++ [e], by simp, ?_⟩
          simp only [List.mem_append, List.mem_singleton, not_or]
          exact ⟨hlater, Ne.symm hne⟩
    rw [hsplit, ← ih]
    cases e with
    | made d => simp [sinceClear_made]
    | given d => simp [sinceClear_given, eq_comm, or_comm]
    | cleared => simp [sinceClear_cleared]

/-! ### Interning -/

/-- A copy is exchanged for the one that is held, or is held from now on. -/
lemma intern_cases (i : Interner) (c : Copy) :
    (∃ n, i.held.get? c.state = some n ∧ i.intern c = (⟨n, c.state⟩, i)) ∨
      i.held.get? c.state = none ∧
        i.intern c = (c, { i with held := i.held.insert c.state c.serial }) := by
  cases h : i.held.get? c.state with
  | none => exact .inr ⟨rfl, by simp only [intern, h]⟩
  | some n => exact .inl ⟨n, rfl, by simp only [intern, h]⟩

/-- Interning a copy answers with a copy of the same state. -/
lemma state_intern (i : Interner) (c : Copy) : (i.intern c).1.state = c.state := by
  rcases intern_cases i c with ⟨n, -, h⟩ | ⟨-, h⟩ <;> rw [h]

namespace Session

/-! ### Sound sessions -/

/-- No two copies share a number, and the copies held are those that were handed out since the
interner was cleared. -/
structure IsSound (s : Session) : Prop where
  /-- Copies are numbered in the order in which they are made. -/
  serial_lt : ∀ c ∈ s.copies, c.serial < s.interner.made
  /-- No two copies share a number. -/
  eq_of_serial_eq : ∀ c ∈ s.copies, ∀ c' ∈ s.copies, c.serial = c'.serial → c = c'
  /-- The copies held are those that were handed out since the interner was cleared. -/
  held_iff (state : State) (n : Nat) :
    s.interner.held.get? state = some n ↔ ⟨n, state⟩ ∈ sinceClear s.events

/-- An event adds the copy that it is about, if there is one. -/
lemma copies_append (i : Interner) (events : List Event) (e : Event) :
    (Session.mk i (events ++ [e])).copies = (Session.mk i events).copies ++ e.copy?.toList := by
  cases h : e.copy? <;> simp [copies, h]

/-- What was handed out since a clearing has come about. -/
lemma mem_copies_of_mem_sinceClear {s : Session} {c : Copy} (h : c ∈ sinceClear s.events) :
    c ∈ s.copies := by
  obtain ⟨earlier, later, heq, -⟩ := mem_sinceClear.1 h
  rw [copies, heq]
  simp [Event.copy?]

/-- A new copy has a number that no other has. -/
lemma IsSound.make {s : Session} (h : s.IsSound) (state : State) :
    (s.perform (.make state)).IsSound := by
  have hmem : ∀ c, c ∈ (s.perform (.make state)).copies ↔ c ∈ s.copies ∨
      c = ⟨s.interner.made, state⟩ := by
    intro c
    rw [perform, Interner.make, copies_append]
    simp [Event.copy?, copies]
  constructor
  · intro c hc
    show c.serial < s.interner.made + 1
    rcases (hmem c).1 hc with hc | rfl
    · have := h.serial_lt c hc
      omega
    · simp
  · intro c hc c' hc' hserial
    rcases (hmem c).1 hc with hc | rfl <;> rcases (hmem c').1 hc' with hc' | rfl
    · exact h.eq_of_serial_eq c hc c' hc' hserial
    · exact absurd hserial (Nat.ne_of_lt (h.serial_lt c hc))
    · exact absurd hserial.symm (Nat.ne_of_lt (h.serial_lt c' hc'))
    · rfl
  · intro state' n
    show s.interner.held.get? state' = some n ↔ _ ∈ sinceClear (s.events ++ [_])
    rw [sinceClear_made, h.held_iff]

/-- After a clearing nothing is held, and nothing has been handed out. -/
lemma IsSound.clear {s : Session} (h : s.IsSound) : (s.perform .clear).IsSound := by
  have hcopies : (s.perform .clear).copies = s.copies := by
    rw [perform, copies_append]
    simp [Event.copy?, copies]
  constructor
  · rw [hcopies]
    exact h.serial_lt
  · rw [hcopies]
    exact h.eq_of_serial_eq
  · intro state n
    show (∅ : Table State Nat).get? state = some n ↔ _ ∈ sinceClear (s.events ++ [_])
    rw [sinceClear_cleared]
    simp

/-- A copy that was handed out since the interner was cleared comes again. -/
lemma IsSound.give_again {s : Session} (h : s.IsSound) {i : Interner} {c : Copy}
    (hheld : i.held = s.interner.held) (hmade : s.interner.made ≤ i.made)
    (hc : c ∈ sinceClear s.events) : (Session.mk i (s.events ++ [.given c])).IsSound := by
  have hcopy := mem_copies_of_mem_sinceClear hc
  have hmem : ∀ d, d ∈ (Session.mk i (s.events ++ [.given c])).copies ↔ d ∈ s.copies := by
    intro d
    rw [copies_append, List.mem_append]
    simp only [Event.copy?, Option.toList_some, List.mem_singleton]
    exact ⟨fun hd => hd.elim id fun heq => heq ▸ hcopy, .inl⟩
  constructor
  · intro d hd
    have := h.serial_lt d ((hmem d).1 hd)
    show d.serial < i.made
    omega
  · intro d hd d' hd'
    exact h.eq_of_serial_eq d ((hmem d).1 hd) d' ((hmem d').1 hd')
  · intro state n
    show i.held.get? state = some n ↔ _ ∈ sinceClear (s.events ++ [_])
    rw [hheld, h.held_iff, sinceClear_given, List.mem_append, List.mem_singleton]
    exact ⟨.inl, fun hd => hd.elim id fun heq => heq ▸ hc⟩

/-- A copy is handed out of a state of which none was handed out since the interner was cleared. -/
lemma IsSound.give_first {s : Session} (h : s.IsSound) {i : Interner} {c : Copy}
    (hheld : i.held = s.interner.held.insert c.state c.serial) (hmade : s.interner.made ≤ i.made)
    (hlt : c.serial < i.made) (hc : c ∈ s.copies ∨ s.interner.made ≤ c.serial)
    (hnone : s.interner.held.get? c.state = none) :
    (Session.mk i (s.events ++ [.given c])).IsSound := by
  have hmem : ∀ d, d ∈ (Session.mk i (s.events ++ [.given c])).copies ↔ d ∈ s.copies ∨ d = c := by
    intro d
    rw [copies_append, List.mem_append]
    simp [Event.copy?, copies]
  have hother : ∀ d ∈ s.copies, d.serial = c.serial → d = c := by
    intro d hd hserial
    rcases hc with hc | hc
    · exact h.eq_of_serial_eq d hd c hc hserial
    · have := h.serial_lt d hd
      omega
  constructor
  · intro d hd
    show d.serial < i.made
    rcases (hmem d).1 hd with hd | hd
    · have := h.serial_lt d hd
      omega
    · rw [hd]
      exact hlt
  · intro d hd d' hd' hserial
    rcases (hmem d).1 hd with hd | hd <;> rcases (hmem d').1 hd' with hd' | hd'
    · exact h.eq_of_serial_eq d hd d' hd' hserial
    · rw [hd'] at hserial ⊢
      exact hother d hd hserial
    · rw [hd] at hserial ⊢
      exact (hother d' hd' hserial.symm).symm
    · rw [hd, hd']
  · intro state n
    show i.held.get? state = some n ↔ _ ∈ sinceClear (s.events ++ [_])
    rw [sinceClear_given, List.mem_append, List.mem_singleton, hheld, Table.get?_insert,
      ← h.held_iff]
    obtain ⟨serial, state'⟩ := c
    by_cases hstate : state' = state
    · subst hstate
      simp [hnone, eq_comm]
    · simp [hstate, Ne.symm hstate]

/-- **Handing out a copy keeps a session sound**, be it for a copy that has come about before or for
a new one, which is given the next number. -/
lemma IsSound.give {s : Session} (h : s.IsSound) {i : Interner} {c : Copy}
    (hheld : i.held = s.interner.held) (hmade : s.interner.made ≤ i.made) (hlt : c.serial < i.made)
    (hc : c ∈ s.copies ∨ s.interner.made ≤ c.serial) :
    (Session.mk (i.intern c).2 (s.events ++ [.given (i.intern c).1])).IsSound := by
  rcases intern_cases i c with ⟨n, hn, hintern⟩ | ⟨hnone, hintern⟩ <;> rw [hintern]
  · rw [hheld, h.held_iff] at hn
    exact h.give_again hheld hmade hn
  · rw [hheld] at hnone ⊢
    exact h.give_first rfl hmade hlt hc hnone

/-- A copy is exchanged for a copy that is handed in, and requested for everything else. -/
lemma answer?_eq (s : Session) (r : Request) :
    (∃ k, r = .intern k) ∨ s.answer? r = (s.described? r).map s.interner.request := by
  cases r with
  | intern k => exact .inl ⟨k, rfl⟩
  | start | stop | build | next | prior => exact .inr rfl

/-- Whatever is handed out on a request is handed out for a copy that has come about before or for a
new one, of the state that the request describes. -/
lemma answer?_cases {s : Session} {r : Request} {a : Copy × Interner} (h : s.answer? r = some a) :
    ∃ i c, a = Interner.intern i c ∧ s.described? r = some c.state ∧ i.held = s.interner.held ∧
      (i = s.interner ∧ c ∈ s.copies ∨ i.made = s.interner.made + 1 ∧
        c.serial = s.interner.made) := by
  rcases s.answer?_eq r with ⟨k, rfl⟩ | hanswer
  · obtain ⟨c, hc, rfl⟩ := Option.map_eq_some_iff.1 h
    refine ⟨s.interner, c, rfl, ?_, rfl, .inl ⟨rfl, List.mem_of_getElem? hc⟩⟩
    rw [described?, hc, Option.map_some]
  · rw [hanswer] at h
    obtain ⟨state, hstate, rfl⟩ := Option.map_eq_some_iff.1 h
    exact ⟨{ s.interner with made := s.interner.made + 1 }, ⟨s.interner.made, state⟩, rfl, hstate,
      rfl, .inr ⟨rfl, rfl⟩⟩

/-- The copy that is handed out on a request is one of the state that the request describes. -/
lemma map_state_answer? (s : Session) (r : Request) :
    (s.answer? r).map (fun a => a.1.state) = s.described? r := by
  have hrequest : ∀ state, (s.interner.request state).1.state = state :=
    fun state => state_intern _ _
  rcases s.answer?_eq r with ⟨k, rfl⟩ | hanswer
  · simp only [answer?, described?, Option.map_map, Function.comp_def, state_intern]
  · simp only [hanswer, Option.map_map, Function.comp_def, hrequest, Option.map_id']

/-- Every operation keeps a session sound. -/
lemma IsSound.perform {s : Session} (h : s.IsSound) (op : Operation) : (s.perform op).IsSound := by
  cases op with
  | make state => exact h.make state
  | clear => exact h.clear
  | ask r =>
    rw [Session.perform]
    cases hanswer : s.answer? r with
    | none => exact h
    | some a =>
      obtain ⟨i, c, rfl, -, hheld, ⟨rfl, hc⟩ | ⟨hmade, hserial⟩⟩ := answer?_cases hanswer
      · exact h.give rfl (Nat.le_refl _) (h.serial_lt c hc) (.inl hc)
      · exact h.give hheld (by omega) (by omega) (.inr (by omega))

/-- A session is sound before its first event. -/
lemma isSound_new : IsSound {} where
  serial_lt c hc := absurd hc List.not_mem_nil
  eq_of_serial_eq c hc := absurd hc List.not_mem_nil
  held_iff state n := by simp [sinceClear]

/-- **Every session is sound.** -/
theorem isSound_run (ops : List Operation) : (run ops).IsSound := by
  induction ops using List.reverseRecOn with
  | nil => exact isSound_new
  | append_singleton ops op ih =>
    rw [run, List.foldl_concat, ← run]
    exact ih.perform op

/-! ### One copy for each state -/

/-- Copies handed out since the interner was cleared are one just if their states are equal. -/
lemma IsSound.serial_eq_iff {s : Session} (h : s.IsSound) {c c' : Copy}
    (hc : c ∈ sinceClear s.events) (hc' : c' ∈ sinceClear s.events) :
    c.serial = c'.serial ↔ c.state = c'.state := by
  constructor
  · intro hserial
    have hcopy := mem_copies_of_mem_sinceClear hc
    rw [h.eq_of_serial_eq c hcopy c' (mem_copies_of_mem_sinceClear hc') hserial]
  · intro hstate
    have hheld := (h.held_iff c.state c.serial).2 hc
    rw [hstate, (h.held_iff c'.state c'.serial).2 hc'] at hheld
    exact (Option.some.inj hheld).symm

/-- What has come about at some point of a session came about in a shorter one. -/
lemma exists_run_of_events {ops : List Operation} {events later : List Event}
    (h : (run ops).events = events ++ later) : ∃ ops', (run ops').events = events := by
  induction ops using List.reverseRecOn generalizing later with
  | nil =>
    obtain ⟨rfl, -⟩ := List.append_eq_nil_iff.1 h.symm
    exact ⟨[], rfl⟩
  | append_singleton ops op ih =>
    rcases List.eq_nil_or_concat later with rfl | ⟨later, last, rfl⟩
    · exact ⟨ops ++ [op], by rw [h, List.append_nil]⟩
    · -- an operation adds one event at most
      have hone : (run (ops ++ [op])).events = (run ops).events ∨
          ∃ e, (run (ops ++ [op])).events = (run ops).events ++ [e] := by
        rw [run, List.foldl_concat, ← run]
        cases op with
        | make state => exact .inr ⟨_, rfl⟩
        | clear => exact .inr ⟨_, rfl⟩
        | ask r =>
          rw [Session.perform]
          cases (run ops).answer? r with
          | none => exact .inl rfl
          | some a => exact .inr ⟨_, rfl⟩
      rcases hone with hsame | ⟨e, he⟩
      · exact ih (hsame.symm.trans h)
      · rw [he, List.concat_eq_append, ← List.append_assoc] at h
        exact ih (List.append_inj' h rfl).1

/-- A copy that is handed in comes back itself just if none of its state is held, or it is the one
held itself. -/
lemma serial_intern_iff (i : Interner) (c : Copy) :
    (i.intern c).1.serial = c.serial ↔
      i.held.get? c.state = none ∨ i.held.get? c.state = some c.serial := by
  rcases intern_cases i c with ⟨n, hn, hintern⟩ | ⟨hnone, hintern⟩
  · simp [hintern, hn]
  · simp [hintern, hnone]

/-- Nothing is held for the states of which no copy was handed out since the interner was
cleared. -/
lemma IsSound.mem_held_iff {s : Session} (h : s.IsSound) (state : State) :
    state ∈ s.interner.held.keys ↔ ∃ c ∈ sinceClear s.events, c.state = state := by
  rw [Table.mem_keys_iff]
  constructor
  · rintro ⟨n, hn⟩
    exact ⟨⟨n, state⟩, (h.held_iff state n).1 hn, rfl⟩
  · rintro ⟨c, hc, rfl⟩
    exact ⟨c.serial, (h.held_iff c.state c.serial).2 hc⟩

/-- **The interner hands out one copy for each state.** Let an interner be asked for copies and
cleared, and let copies be made beside it, in any order; copies that have come about may be handed
in at any time. Then

* no number is given to two copies, so copies with one number have one state;
* two copies handed out without a clearing between them are the same just if their states are equal;
* a copy is handed out on every request that describes a state, and it is a copy of this state;
* a copy that is handed in comes back itself just if no copy of its state has been handed out since
  the interner was cleared, or it is the one held;
* the size is the number of different states of which a copy has been handed out since then.

**Proof sketch.** The copies held are those handed out since the interner was cleared, by induction
on the operations. Two copies with no clearing between them are both among these when the second is
handed out. -/
theorem run_canonical (ops : List Operation) :
    let s := run ops
    (∀ c ∈ s.copies, ∀ c' ∈ s.copies, c.serial = c'.serial → c.state = c'.state) ∧
      (∀ earlier c between c' later,
        s.events = earlier ++ .given c :: between ++ .given c' :: later → .cleared ∉ between →
          (c.serial = c'.serial ↔ c.state = c'.state)) ∧
      (∀ r, (s.answer? r).map (fun a => a.1.state) = s.described? r) ∧
      (∀ k c, s.copies[k]? = some c → ∃ c' i, s.answer? (.intern k) = some (c', i) ∧
        (c'.serial = c.serial ↔
          (∀ d ∈ sinceClear s.events, d.state ≠ c.state) ∨
            s.interner.held.get? c.state = some c.serial)) ∧
      s.interner.size = ((sinceClear s.events).map Copy.state).toFinset.card := by
  intro s
  have hs : s.IsSound := isSound_run ops
  refine ⟨?_, ?_, ?_, ?_, ?_⟩
  · intro c hc c' hc' hserial
    rw [hs.eq_of_serial_eq c hc c' hc' hserial]
  · intro earlier c between c' later hevents hbetween
    have hshorter : s.events = (earlier ++ .given c :: (between ++ [.given c'])) ++ later := by
      rw [hevents]
      simp
    obtain ⟨ops', hops'⟩ := exists_run_of_events hshorter
    refine (isSound_run ops').serial_eq_iff ?_ ?_ <;> rw [hops', mem_sinceClear]
    · refine ⟨earlier, between ++ [.given c'], rfl, ?_⟩
      simp [hbetween]
    · exact ⟨earlier ++ .given c :: between, [], by simp, List.not_mem_nil⟩
  · exact map_state_answer? s
  · intro k c hc
    refine ⟨(s.interner.intern c).1, (s.interner.intern c).2, ?_, ?_⟩
    · rw [answer?, hc, Option.map_some]
    · rw [serial_intern_iff, Table.get?_eq_none_iff, hs.mem_held_iff]
      simp only [not_exists, not_and, ne_eq]
  · have hkeys : s.interner.held.keys.toFinset =
        ((sinceClear s.events).map Copy.state).toFinset := by
      ext state
      rw [List.mem_toFinset, List.mem_toFinset, hs.mem_held_iff, List.mem_map]
    have hnodup : s.interner.held.keys.Nodup := s.interner.held.keys_nodup
    rw [size, ← Table.length_keys, ← List.toFinset_card_of_nodup hnodup, hkeys]

/-- A copy of the start state was made beside the interner before the interner was asked for one.
When it is handed in, the other one comes back; after a clearing it comes back itself, and is handed
out when the start state is asked for. -/
theorem run_canonical_beside :
    (∃ c i, (run [.make State.start, .ask .start]).answer? (.intern 0) = some (c, i) ∧
      c.serial ≠ 0) ∧
      (run [.make State.start, .ask .start, .clear, .ask (.intern 0), .ask .start]).events =
        [.made ⟨0, State.start⟩, .given ⟨1, State.start⟩, .cleared, .given ⟨0, State.start⟩,
          .given ⟨0, State.start⟩] ∧
      (run [.make State.start, .ask .start, .clear, .ask (.intern 0), .ask .start]).interner.size =
        1 := by
  obtain ⟨-, -, -, hintern, -⟩ := run_canonical [.make State.start, .ask .start]
  obtain ⟨c, i, hanswer, hsame⟩ := hintern 0 ⟨0, State.start⟩ rfl
  have hother : c.serial ≠ 0 := by
    intro hzero
    rcases hsame.1 hzero with hnone | hheld
    · exact hnone ⟨1, State.start⟩ (by decide) rfl
    · exact absurd hheld (by decide)
  obtain ⟨-, -, -, -, hsize⟩ :=
    run_canonical [.make State.start, .ask .start, .clear, .ask (.intern 0), .ask .start]
  exact ⟨⟨c, i, hanswer, hother⟩, rfl, hsize.trans (by decide)⟩

end Session

end TrellisTagger.Interner
