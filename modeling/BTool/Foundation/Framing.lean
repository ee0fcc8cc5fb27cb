import Mathlib.Data.List.Basic

/-! Streams of frames, each of which says at its front how long it is. How a stream is cut does not
matter for its frames. -/

namespace BTool.Foundation

/-- What is made of the front of a stream. -/
inductive Front (Item : Type) where
  /-- More is needed. -/
  | incomplete
  | malformed
  /-- A frame, and its length. -/
  | frame (item : Item) (length : Nat)

/-- A way to read the front of a stream, which more of the stream does not change. -/
structure Framing (Symbol Item : Type) where
  front : List Symbol → Front Item
  front_nil : front [] = .incomplete
  length_pos : ∀ {stream item length}, front stream = .frame item length → 0 < length
  length_le : ∀ {stream item length}, front stream = .frame item length → length ≤ stream.length
  frame_append : ∀ {stream item length} more, front stream = .frame item length →
    front (stream ++ more) = .frame item length
  frame_take : ∀ {stream item length}, front stream = .frame item length →
    front (stream.take length) = .frame item length
  malformed_append : ∀ {stream} more, front stream = .malformed →
    front (stream ++ more) = .malformed

namespace Framing

variable {Symbol Item : Type} {framing : Framing Symbol Item} {stream rest more : List Symbol}
  {items : List Item} {bad : Bool}

/-- The frames of a stream one after the other, what is left behind them, and whether that is
malformed. -/
inductive Drains (framing : Framing Symbol Item) : List Symbol → List Item → List Symbol → Bool →
    Prop where
  | incomplete {stream : List Symbol} (waits : framing.front stream = .incomplete) :
      Drains framing stream [] stream false
  | malformed {stream : List Symbol} (bad : framing.front stream = .malformed) :
      Drains framing stream [] stream true
  | frame {stream rest : List Symbol} {item : Item} {length : Nat} {items : List Item} {bad : Bool}
      (first : framing.front stream = .frame item length)
      (later : Drains framing (stream.drop length) items rest bad) :
      Drains framing stream (item :: items) rest bad

theorem drains_nil : framing.Drains [] [] [] false := .incomplete framing.front_nil

/-- Every stream has its frames. -/
theorem exists_drains (framing : Framing Symbol Item) (stream : List Symbol) :
    ∃ items rest bad, framing.Drains stream items rest bad := by
  induction left : stream.length using Nat.strongRecOn generalizing stream with
  | ind size ih =>
    cases first : framing.front stream with
    | incomplete => exact ⟨[], stream, false, .incomplete first⟩
    | malformed => exact ⟨[], stream, true, .malformed first⟩
    | frame item length =>
      have shorter : (stream.drop length).length < size := by
        have := framing.length_pos first
        have := framing.length_le first
        rw [List.length_drop]
        omega
      obtain ⟨items, rest, bad, later⟩ := ih _ shorter _ rfl
      exact ⟨item :: items, rest, bad, .frame first later⟩

theorem Drains.unique {items' : List Item} {rest' : List Symbol} {bad' : Bool}
    (drains : framing.Drains stream items rest bad)
    (drains' : framing.Drains stream items' rest' bad') :
    items' = items ∧ rest' = rest ∧ bad' = bad := by
  induction drains generalizing items' with
  | incomplete waits =>
    cases drains' with
    | incomplete _ => exact ⟨rfl, rfl, rfl⟩
    | malformed bad => cases waits.symm.trans bad
    | frame first _ => cases waits.symm.trans first
  | malformed bad =>
    cases drains' with
    | incomplete waits => cases waits.symm.trans bad
    | malformed _ => exact ⟨rfl, rfl, rfl⟩
    | frame first _ => cases bad.symm.trans first
  | frame first _ ih =>
    cases drains' with
    | incomplete waits => cases waits.symm.trans first
    | malformed bad => cases bad.symm.trans first
    | frame first' later' =>
      cases first.symm.trans first'
      obtain ⟨rfl, rfl, rfl⟩ := ih later'
      exact ⟨rfl, rfl, rfl⟩

/-- What is left of a stream with more behind it is read on. -/
theorem Drains.append {items' : List Item} {rest' : List Symbol}
    (front : framing.Drains stream items rest false)
    (back : framing.Drains (rest ++ more) items' rest' bad) :
    framing.Drains (stream ++ more) (items ++ items') rest' bad := by
  induction items generalizing stream with
  | nil =>
    cases front with
    | incomplete _ => exact back
  | cons item items ih =>
    cases front with
    | frame first later =>
      refine .frame (framing.frame_append more first) ?_
      rw [List.drop_append_of_le_length (framing.length_le first)]
      exact ih later

/-- A malformed stream stays as it is, whatever comes behind it. -/
theorem Drains.append_malformed (front : framing.Drains stream items rest true) :
    framing.Drains (stream ++ more) items (rest ++ more) true := by
  induction items generalizing stream with
  | nil =>
    cases front with
    | malformed bad => exact .malformed (framing.malformed_append more bad)
  | cons item items ih =>
    cases front with
    | frame first later =>
      refine .frame (framing.frame_append more first) ?_
      rw [List.drop_append_of_le_length (framing.length_le first)]
      exact ih later

/-- The frames of a stream without what is left behind them. -/
theorem Drains.frames (drains : framing.Drains stream items rest bad) :
    ∃ frames, stream = frames ++ rest ∧ framing.Drains frames items [] false := by
  induction drains with
  | incomplete _ => exact ⟨[], rfl, drains_nil⟩
  | malformed _ => exact ⟨[], rfl, drains_nil⟩
  | @frame stream rest item length items bad first _ ih =>
    obtain ⟨frames, split, later⟩ := ih
    refine ⟨stream.take length ++ frames, ?_, .frame (framing.frame_append frames (framing.frame_take first)) ?_⟩
    · rw [List.append_assoc, ← split, List.take_append_drop]
    · have whole : (stream.take length).length = length :=
        List.length_take_of_le (framing.length_le first)
      rw [List.drop_append_of_le_length (by omega), List.drop_eq_nil_of_le (by omega)]
      exact later

/-- What is left is the end of the stream. -/
theorem Drains.drop_eq_rest (drains : framing.Drains stream items rest bad) :
    stream.drop (stream.length - rest.length) = rest := by
  obtain ⟨frames, rfl, _⟩ := drains.frames
  rw [List.length_append, Nat.add_sub_cancel, List.drop_left]

/-- A first part of a stream that is not malformed is not malformed. -/
theorem Drains.front_formed (whole : framing.Drains (stream ++ more) items rest false) :
    ∃ front left, framing.Drains stream front left false := by
  obtain ⟨front, left, bad, drains⟩ := framing.exists_drains stream
  cases bad with
  | false => exact ⟨front, left, drains⟩
  | true => cases (whole.unique drains.append_malformed).2.2

/-- Reading on in a stream of which a first part has been read. -/
theorem Drains.read_on (front : framing.Drains stream items rest false) {items' : List Item}
    {rest' : List Symbol} (whole : framing.Drains (stream ++ more) items' rest' bad) :
    ∃ later, framing.Drains (rest ++ more) later rest' bad ∧ items' = items ++ later := by
  obtain ⟨later, rest'', bad'', back⟩ := framing.exists_drains (rest ++ more)
  obtain ⟨rfl, rfl, rfl⟩ := whole.unique (front.append back)
  exact ⟨later, back, rfl⟩

/-- A part of a frame waits for the rest of it. -/
theorem front_part {part chunk : List Symbol} {item : Item}
    (whole : framing.front chunk = .frame item chunk.length) (isPart : part <+: chunk)
    (short : part.length < chunk.length) : framing.front part = .incomplete := by
  obtain ⟨more, rfl⟩ := isPart
  cases front : framing.front part with
  | incomplete => rfl
  | malformed => cases whole.symm.trans (framing.malformed_append more front)
  | frame other length =>
    cases whole.symm.trans (framing.frame_append more front)
    exact absurd (framing.length_le front) (Nat.not_le_of_lt short)

/-- What is left of a part of a stream of frames is less than one of them. -/
theorem Drains.left_lt {part : List Symbol} {chunks : List (List Symbol)}
    (whole : ∀ chunk ∈ chunks, ∃ item, framing.front chunk = .frame item chunk.length)
    (isPart : part <+: chunks.flatten) (drains : framing.Drains part items rest false) :
    rest = [] ∨ ∃ chunk ∈ chunks, rest.length < chunk.length := by
  induction chunks generalizing part items with
  | nil =>
    obtain rfl := List.prefix_nil.mp isPart
    exact .inl (drains.unique drains_nil).2.1.symm
  | cons chunk chunks ih =>
    obtain ⟨item, first⟩ := whole chunk List.mem_cons_self
    rw [List.flatten_cons] at isPart
    by_cases short : part.length < chunk.length
    · refine .inr ⟨chunk, List.mem_cons_self, ?_⟩
      have waits := front_part first (List.prefix_of_prefix_length_le isPart
        (List.prefix_append ..) (Nat.le_of_lt short)) short
      obtain ⟨_, rfl, _⟩ := drains.unique (.incomplete waits)
      exact short
    · obtain ⟨later, rfl⟩ := List.prefix_of_prefix_length_le (List.prefix_append chunk chunks.flatten)
        isPart (Nat.le_of_not_lt short)
      have isPart : later <+: chunks.flatten := (List.prefix_append_right_inj chunk).mp isPart
      cases drains with
      | incomplete waits => cases waits.symm.trans (framing.frame_append later first)
      | frame isFirst behind =>
        cases isFirst.symm.trans (framing.frame_append later first)
        rw [List.drop_left] at behind
        rcases ih (fun other member => whole other (List.mem_cons_of_mem _ member)) isPart behind with
          nothing | ⟨other, member, less⟩
        · exact .inl nothing
        · exact .inr ⟨other, List.mem_cons_of_mem _ member, less⟩

/-- A part of a stream of frames holds the first of them whole, and behind them less than the next one. -/
theorem drains_part {part : List Symbol} {frames : List (List Symbol × Item)}
    (whole : ∀ frame ∈ frames, framing.front frame.1 = .frame frame.2 frame.1.length)
    (isPart : part <+: (frames.map Prod.fst).flatten) :
    ∃ read left rest, frames = read ++ left ∧ part = (read.map Prod.fst).flatten ++ rest ∧
      framing.Drains part (read.map Prod.snd) rest false ∧
      (rest = [] ∨ ∃ next later, left = next :: later ∧ rest <+: next.1 ∧ rest.length < next.1.length) := by
  induction frames generalizing part with
  | nil =>
    obtain rfl := List.prefix_nil.mp isPart
    exact ⟨[], [], [], rfl, rfl, drains_nil, .inl rfl⟩
  | cons frame frames ih =>
    have first := whole frame List.mem_cons_self
    rw [List.map_cons, List.flatten_cons] at isPart
    by_cases short : part.length < frame.1.length
    · have begins : part <+: frame.1 :=
        List.prefix_of_prefix_length_le isPart (List.prefix_append ..) (Nat.le_of_lt short)
      exact ⟨[], frame :: frames, part, rfl, rfl, .incomplete (front_part first begins short),
        .inr ⟨frame, frames, rfl, begins, short⟩⟩
    · obtain ⟨later, rfl⟩ := List.prefix_of_prefix_length_le (List.prefix_append frame.1 _) isPart
        (Nat.le_of_not_lt short)
      obtain ⟨read, left, rest, rfl, rfl, drains, behind⟩ :=
        ih (fun other member => whole other (List.mem_cons_of_mem _ member))
          ((List.prefix_append_right_inj frame.1).mp isPart)
      refine ⟨frame :: read, left, rest, rfl, ?_, .frame (framing.frame_append _ first) ?_, behind⟩
      · rw [List.map_cons, List.flatten_cons, List.append_assoc]
      · rwa [List.drop_left]

end Framing

end BTool.Foundation
