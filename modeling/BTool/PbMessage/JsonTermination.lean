import Mathlib.Logic.Relation
import BTool.PbMessage.JsonRoundTrip

/-! The loop over a text from anywhere, whatever the reader of JSON makes of it. The offset stays within
the text, but only a package that is found to end moves it. -/

namespace BTool.PbMessage.NPPbJsonPackage

open BTool.Foundation DecodePackage

variable {json : JsonCpp} {text buffer memMsg : List UInt8} {offset : Nat}

/-- The text has the name of the message, a brace in front of it, and a closing brace no later than where
the name stands again. -/
def Braced (text memMsg : List UInt8) : Prop :=
  ∃ first start, find text memMsg 0 = some first ∧ rfind text (ascii ['{']) (some first) = some start ∧
    (rfind text (ascii ['}']) (find text memMsg (start + commJsonMinPackageLen + 1))).isSome

/-- The text begins with a package that `vaild` finds the end of. -/
def HasPackage (json : JsonCpp) (text : List UInt8) : Prop :=
  ∃ memMsg, Named json text memMsg ∧ Braced text memMsg

/-- The reader makes only one object of a text. -/
theorem Named.unique {other : List UInt8} (named : Named json text memMsg) (named' : Named json text other) :
    other = memMsg := by
  obtain ⟨_, _, reads, _⟩ := named
  obtain ⟨_, _, reads', _⟩ := named'
  obtain ⟨same, _⟩ := List.cons.inj (Json.object.inj (Option.some.inj (reads'.symm.trans reads)))
  exact (Prod.mk.inj same).1

/-- A brace that is found is a character of the text. -/
theorem lt_of_rfind {text : List UInt8} {mark : Char} {pos : Option Nat} {place : Nat}
    (found : rfind text (ascii [mark]) pos = some place) : place < text.length := by
  obtain ⟨_, stands⟩ := lastPlace_eq_some found
  have long := stands.length_le
  rw [List.length_drop] at long
  change 1 ≤ _ at long
  omega

namespace DecodePackage

theorem locate_eq_some {package located : DecodePackage}
    (found : package.locate text memMsg = some located) :
    ∃ first start, find text memMsg 0 = some first ∧ rfind text (ascii ['{']) (some first) = some start ∧
      located = { package with
        offset := (package.offset + start) % 2 ^ 64
        packLen := ((rfind text (ascii ['}'])
          (find text memMsg (start + commJsonMinPackageLen + 1))).getD (2 ^ 64 - 1) + 2 ^ 64 - start + 1) %
            2 ^ 64 } := by
  obtain ⟨first, isFirst, found⟩ := Option.bind_eq_some_iff.mp found
  obtain ⟨start, isStart, found⟩ := Option.bind_eq_some_iff.mp found
  exact ⟨first, start, isFirst, isStart, (Option.some.inj found).symm⟩

theorem readFields_place (package : DecodePackage) (members : List (List UInt8 × Json))
    (memCmd memData memChk : List UInt8) :
    let read := package.readFields members memCmd memData memChk
    read.buffer = package.buffer ∧ read.offset = package.offset ∧ read.packLen = package.packLen ∧
      read.curResolveIsvaild = package.curResolveIsvaild := by
  unfold readFields
  split
  · exact ⟨rfl, rfl, rfl, rfl⟩
  · split
    · split <;> exact ⟨rfl, rfl, rfl, rfl⟩
    · exact ⟨rfl, rfl, rfl, rfl⟩

/-- What `vaild` comes to: it has located a package, or it leaves everything as it is. -/
theorem resolve_cases (json : JsonCpp) (within : offset ≤ buffer.length) :
    let resolved := (startingAt buffer offset).resolve json offset
    (∃ memMsg located, Named json (buffer.drop offset) memMsg ∧
      (unread buffer offset).locate (buffer.drop offset) memMsg = some located ∧
      resolved.buffer = located.buffer ∧ resolved.offset = located.offset ∧
      resolved.packLen = located.packLen ∧
      resolved.curResolveIsvaild = located.curResolveIsvaild) ∨
    ((∀ memMsg, Named json (buffer.drop offset) memMsg →
      (unread buffer offset).locate (buffer.drop offset) memMsg = none) ∧
      resolved = unread buffer offset) := by
  by_cases located : ∃ memMsg located, Named json (buffer.drop offset) memMsg ∧
      (unread buffer offset).locate (buffer.drop offset) memMsg = some located
  · obtain ⟨memMsg, located, named, found⟩ := located
    refine .inl ⟨memMsg, located, named, found, ?_⟩
    obtain ⟨msg, names, reads, isMsg, hasNames, isCmd, isData, isChk⟩ := named
    obtain ⟨memCmd, isCmd⟩ := Option.isSome_iff_exists.mp isCmd
    obtain ⟨memData, isData⟩ := Option.isSome_iff_exists.mp isData
    obtain ⟨memChk, isChk⟩ := Option.isSome_iff_exists.mp isChk
    cases msg with
    | object members =>
      rw [resolve_eq within reads isMsg hasNames isCmd isData isChk found rfl]
      exact readFields_place ..
    | null =>
      obtain rfl := Option.some.inj hasNames
      cases isCmd
    | _ => cases hasNames
  · have absent (memMsg : List UInt8) (named : Named json (buffer.drop offset) memMsg) :
        (unread buffer offset).locate (buffer.drop offset) memMsg = none :=
      Option.eq_none_iff_forall_ne_some.mpr fun found isFound => located ⟨memMsg, found, named, isFound⟩
    exact .inr ⟨absent, resolve_unread absent⟩

/-- Where a package is found to end, the offset moves behind its end; elsewhere it comes back to where
it was. -/
theorem resolve_moves (json : JsonCpp) (small : buffer.length < 2 ^ 64) (within : offset ≤ buffer.length) :
    let resolved := (startingAt buffer offset).resolve json offset
    let next := (resolved.offset + resolved.packLen) % 2 ^ 64
    (resolved.buffer = buffer ∧ resolved.curResolveIsvaild = true ∧ resolved.offset ≤ buffer.length) ∧
      ((HasPackage json (buffer.drop offset) ∧ resolved.offset ≠ buffer.length ∧ offset < next ∧
          next ≤ buffer.length) ∨
        (¬ HasPackage json (buffer.drop offset) ∧ next = offset ∧
          (resolved.offset = buffer.length → offset = buffer.length))) := by
  intro resolved next
  obtain ⟨memMsg, located, named, found, isBuffer, isOffset, isPackLen, isDone⟩ | ⟨absent, nothing⟩ :=
    resolve_cases json within
  · obtain ⟨first, start, isFirst, isStart, rfl⟩ := locate_eq_some found
    have start_lt := lt_of_rfind isStart
    rw [List.length_drop] at start_lt
    have isStarted : resolved.offset = offset + start :=
      isOffset.trans (Nat.mod_eq_of_lt (by change offset + start < 2 ^ 64; omega))
    refine ⟨⟨isBuffer, isDone, by omega⟩, ?_⟩
    cases isEnd : rfind (buffer.drop offset) (ascii ['}'])
        (find (buffer.drop offset) memMsg (start + commJsonMinPackageLen + 1)) with
    | none =>
      simp only [isEnd, Option.getD_none] at isPackLen
      have isNext : next = offset := by
        change (resolved.offset + resolved.packLen) % 2 ^ 64 = offset
        rw [isStarted, isPackLen, Nat.add_mod_mod]
        omega
      refine .inr ⟨?_, by omega, by omega⟩
      rintro ⟨other, named', first', start', isFirst', isStart', ended⟩
      obtain rfl := named.unique named'
      obtain rfl := Option.some.inj (isFirst.symm.trans isFirst')
      obtain rfl := Option.some.inj (isStart.symm.trans isStart')
      rw [isEnd] at ended
      cases ended
    | some last =>
      simp only [isEnd, Option.getD_some] at isPackLen
      have last_lt := lt_of_rfind isEnd
      rw [List.length_drop] at last_lt
      have isNext : next = offset + last + 1 := by
        change (resolved.offset + resolved.packLen) % 2 ^ 64 = offset + last + 1
        rw [isStarted, isPackLen, Nat.add_mod_mod]
        omega
      refine .inl ⟨⟨memMsg, named, first, start, isFirst, isStart, by rw [isEnd]; rfl⟩, ?_, ?_, ?_⟩
      all_goals omega
  · have same : resolved.offset = offset ∧ resolved.packLen = 0 := by
      change (resolve json offset _).offset = _ ∧ (resolve json offset _).packLen = _
      rw [nothing]
      exact ⟨rfl, rfl⟩
    refine ⟨⟨congrArg DecodePackage.buffer nothing, congrArg curResolveIsvaild nothing, by omega⟩,
      .inr ⟨?_, ?_, by omega⟩⟩
    · rintro ⟨memMsg, named, first, start, isFirst, isStart, _⟩
      have located := absent memMsg named
      rw [locate, isFirst] at located
      simp only [Option.bind_eq_bind, Option.bind_some, isStart, reduceCtorEq] at located
    · change (resolved.offset + resolved.packLen) % 2 ^ 64 = offset
      rw [same.1, same.2]
      exact Nat.mod_eq_of_lt (by omega)

end DecodePackage

/-- A round of the loop. -/
def Next (json : JsonCpp) (package next : DecodePackage) : Prop :=
  (package.decodes json).1 = true ∧ next = (package.decodes json).2.decodeNext

/-- The packages that the loop comes to. -/
def Reaches (json : JsonCpp) : DecodePackage → DecodePackage → Prop := Relation.ReflTransGen (Next json)

/-- The loop ends, and the offset never lies behind the text. -/
structure LoopEnds (json : JsonCpp) (start : DecodePackage) : Prop where
  terminates : ∃ rounds, (decodeLoop json rounds start).isSome
  within : ∀ package, Reaches json start package → package.offset ≤ package.buffer.length ∧
    (package.hasNext json).2.offset ≤ package.buffer.length ∧
    (package.decodes json).2.offset ≤ package.buffer.length

/-- The loop stands at the end of the text, or in front of a package that is found to end. -/
def GoesOn (json : JsonCpp) (package : DecodePackage) : Prop :=
  package.offset = package.buffer.length ∨ HasPackage json (package.buffer.drop package.offset)

section

variable (small : buffer.length < 2 ^ 64) (within : offset ≤ buffer.length)

include small within

/-- A round from within the text stays within it, and moves if there is a package that ends. -/
theorem next_cases {next : DecodePackage} (step : Next json (startingAt buffer offset) next) :
    ∃ further ≤ buffer.length, next = startingAt buffer further ∧
      (HasPackage json (buffer.drop offset) → offset < further) := by
  obtain ⟨⟨isBuffer, done, _⟩, moves⟩ := resolve_moves json small within
  obtain ⟨returned, rfl⟩ := step
  rw [decodes_of_resolve rfl done] at returned ⊢
  split at returned
  · cases returned
  · rename_i before
    rw [if_neg before]
    refine ⟨_, ?_, congrArg (startingAt · _) isBuffer, ?_⟩
    · obtain ⟨_, _, _, inside⟩ | ⟨_, back, _⟩ := moves
      · exact inside
      · exact Nat.le_trans (Nat.le_of_eq back) within
    · intro has
      obtain ⟨_, _, further, _⟩ | ⟨hasNot, _⟩ := moves
      · exact further
      · exact absurd has hasNot

theorem next_of_resolve (notEnd : ((startingAt buffer offset).resolve json offset).offset ≠ buffer.length) :
    Next json (startingAt buffer offset)
      (startingAt buffer ((((startingAt buffer offset).resolve json offset).offset +
        ((startingAt buffer offset).resolve json offset).packLen) % 2 ^ 64)) := by
  obtain ⟨⟨isBuffer, done, _⟩, _⟩ := resolve_moves json small within
  have notEnd : ¬ ((startingAt buffer offset).resolve json offset).offset =
      ((startingAt buffer offset).resolve json offset).buffer.length := by
    rw [isBuffer]
    exact notEnd
  unfold Next
  rw [decodes_of_resolve rfl done, if_neg notEnd]
  exact ⟨rfl, (congrArg (startingAt · _) isBuffer).symm⟩

/-- Where there is text but no package that ends, a round leads back to where it began. -/
theorem next_self (before : offset ≠ buffer.length) (hasNot : ¬ HasPackage json (buffer.drop offset)) :
    Next json (startingAt buffer offset) (startingAt buffer offset) := by
  obtain ⟨_, ⟨has, _⟩ | ⟨_, back, atEnd⟩⟩ := resolve_moves json small within
  · exact absurd has hasNot
  · have step := next_of_resolve small within fun same => before (atEnd same)
    rwa [back] at step

theorem reaches_cases {package : DecodePackage} (reaches : Reaches json (startingAt buffer offset) package) :
    ∃ further ≤ buffer.length, package = startingAt buffer further := by
  induction reaches with
  | refl => exact ⟨offset, within, rfl⟩
  | tail _ step ih =>
    obtain ⟨before, inside, rfl⟩ := ih
    obtain ⟨further, inside, isNext, _⟩ := next_cases small inside step
    exact ⟨further, inside, isNext⟩

/-- As many rounds as there are characters are enough where each of them moves. -/
theorem decodeLoop_ends {rounds : Nat} (goesOn : ∀ package, Reaches json (startingAt buffer offset) package →
    GoesOn json package) (enough : buffer.length - offset < rounds) :
    (decodeLoop json rounds (startingAt buffer offset)).isSome := by
  induction rounds generalizing offset with
  | zero => omega
  | succ rounds ih =>
    obtain atEnd | has := goesOn _ .refl
    · obtain rfl : offset = buffer.length := atEnd
      rw [decodeLoop_end]
      rfl
    · rw [decodeLoop]
      dsimp only
      split
      · rename_i returned
        obtain ⟨further, inside, isNext, moves⟩ := next_cases small within ⟨returned, rfl⟩
        have forward := moves has
        have later : Next json (startingAt buffer offset) (startingAt buffer further) :=
          ⟨returned, isNext.symm⟩
        rw [Option.isSome_map, isNext]
        exact ih inside (fun package reaches => goesOn package (.head later reaches)) (by omega)
      · rfl

end

theorem Next.ends {package next : DecodePackage} {rounds : Nat} (step : Next json package next)
    (ends : (decodeLoop json rounds package).isSome) :
    ∃ fewer < rounds, (decodeLoop json fewer next).isSome := by
  obtain ⟨returned, rfl⟩ := step
  cases rounds with
  | zero => cases ends
  | succ rounds =>
    rw [decodeLoop] at ends
    dsimp only at ends
    rw [if_pos returned, Option.isSome_map] at ends
    exact ⟨rounds, Nat.lt_succ_self _, ends⟩

/-- Where a round leads back to where it began, the loop does not end. -/
theorem Next.forever {package : DecodePackage} (step : Next json package package) (rounds : Nat) :
    decodeLoop json rounds package = none := by
  induction rounds using Nat.strongRecOn with
  | ind rounds ih =>
    rw [← Option.not_isSome_iff_eq_none]
    intro ends
    obtain ⟨fewer, less, ends⟩ := step.ends ends
    rw [ih fewer less] at ends
    cases ends

/-- The loop ends if and only if it stands, wherever it comes to in front of the end, in front of a
package that is found to end; the offset stays within the text in either case. -/
theorem loopEnds_iff {recvMsg : List UInt8} (small : recvMsg.length < 2 ^ 64) :
    LoopEnds json (create recvMsg) ↔
      ∀ package, Reaches json (create recvMsg) package → GoesOn json package := by
  constructor
  · rintro ⟨⟨rounds, ends⟩, _⟩ package reaches
    have ends : ∃ rounds, (decodeLoop json rounds package).isSome := by
      induction reaches with
      | refl => exact ⟨rounds, ends⟩
      | tail _ step ih =>
        obtain ⟨rounds, ends⟩ := ih
        obtain ⟨fewer, _, ends⟩ := step.ends ends
        exact ⟨fewer, ends⟩
    obtain ⟨rounds, ends⟩ := ends
    obtain ⟨offset, within, rfl⟩ := reaches_cases small (Nat.zero_le _) reaches
    by_contra stuck
    obtain ⟨before, hasNot⟩ := not_or.mp stuck
    rw [(next_self small within before hasNot).forever rounds] at ends
    cases ends
  · intro goesOn
    refine ⟨⟨_, decodeLoop_ends small (Nat.zero_le _) goesOn (Nat.lt_succ_self _)⟩, ?_⟩
    intro package reaches
    obtain ⟨offset, within, rfl⟩ := reaches_cases small (Nat.zero_le _) reaches
    obtain ⟨⟨isBuffer, done, inside⟩, _⟩ := resolve_moves json small within
    refine ⟨within, inside, ?_⟩
    rw [decodes_of_resolve rfl done]
    split <;> exact inside

/-- The loop over one package ends behind it. -/
theorem loopEnds_iff_letter : LoopEnds (reading ⟨1, [97], 3⟩)
    (create (encodePackage (reading ⟨1, [97], 3⟩) ⟨1, [97], 3⟩)) := by
  have named : Named (reading ⟨1, [97], 3⟩) (encodePackage (reading ⟨1, [97], 3⟩) ⟨1, [97], 3⟩) commJsonMsg :=
    ⟨_, [commJsonChk, commJsonCommand, commJsonData, commJsonLen], rfl, rfl, rfl, rfl, rfl, rfl⟩
  refine (loopEnds_iff (by decide)).mpr fun package reaches => ?_
  obtain rfl | ⟨second, ⟨_, rfl⟩, later⟩ := reaches.cases_head
  · exact .inr ⟨commJsonMsg, named, 2, 0, by decide +kernel, by decide +kernel, by decide +kernel⟩
  · obtain rfl | ⟨third, ⟨returned, _⟩, _⟩ := later.cases_head
    · exact .inl (by decide +kernel)
    · exact absurd returned (by decide +kernel)

/-- Of a text that the reader of JSON rejects, the loop makes the same empty package for ever. -/
theorem not_loopEnds_letter :
    (∀ rounds, decodeLoop ⟨id, fun _ => none⟩ rounds (create (ascii ['x'])) = none) ∧
      ¬ ∀ (json : JsonCpp) (recvMsg : List UInt8), recvMsg.length < 2 ^ 64 →
        LoopEnds json (create recvMsg) := by
  have forever : ∀ rounds, decodeLoop ⟨id, fun _ => none⟩ rounds (create (ascii ['x'])) = none :=
    Next.forever ⟨rfl, rfl⟩
  refine ⟨forever, fun always => ?_⟩
  obtain ⟨⟨rounds, ends⟩, _⟩ := always ⟨id, fun _ => none⟩ (ascii ['x']) (by decide)
  rw [forever rounds] at ends
  cases ends

end BTool.PbMessage.NPPbJsonPackage
