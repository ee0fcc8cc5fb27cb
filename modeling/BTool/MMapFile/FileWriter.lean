import BTool.Foundation.Image
import BTool.Foundation.Transition
import BTool.MMapFile.VectorWriter

/-! `MMapFile::Writer`: each call extends the file, maps the pages from the one that the old end is in,
and copies the data to the start of the mapping. -/

namespace BTool.MMapFile

open BTool.Foundation BTool.Foundation.Image

/-- The fields of the writer, with the content of the file behind its descriptor. -/
structure Writer where
  /-- `none` where `m_fd` is -1. -/
  file : Option (List UInt8)
  curOffset : Int
deriving DecidableEq

/-- What the system says of the calls that `write` makes. -/
structure WriteCalls where
  ftruncate : Bool
  mmap : Bool
  munmap : Bool

namespace Writer

def construct : Writer := ⟨none, 0⟩

/-- `found` is what the file holds, nothing where it is created, or `none` where `open` fails. -/
def openFile (writer : Writer) (found : Option (List UInt8)) (isAppend : Bool) : ErrorT × Writer :=
  if isAppend then
    match found with
    | none => (.openFail, ⟨none, -1⟩)
    | some content => (.ok, ⟨found, content.length⟩)
  else (.ok, { writer with file := found })

/-- `close`, and the destructor, which leave `m_cur_offset` as it is. -/
def close (writer : Writer) : Writer := { writer with file := none }

def write (page : PageSize) (calls : WriteCalls) (writer : Writer) (data : List UInt8) :
    ErrorT × Writer :=
  if data = [] then (.ok, writer)
  else
    let newFileSize := (writer.curOffset + data.length).bmod (2 ^ 64)
    match writer.file with
    | none => (.ftruncateFail, writer)
    | some content =>
      if calls.ftruncate = false ∨ newFileSize < 0 then (.ftruncateFail, writer)
      else
        let content := truncate 0 content newFileSize.toNat
        let paOffset := page.alignDown (offSize writer.curOffset)
        -- `mmap` refuses an offset that is negative.
        match mmap page (calls.mmap && decide (0 ≤ writer.curOffset)) (subSize newFileSize.toNat paOffset)
          paOffset with
        | none => (.mmapFail, { writer with file := some content })
        | some mapping =>
          -- `memcpy` to `map`, whatever the old end is within its page.
          (if calls.munmap then .ok else .munmapFail,
            ⟨some (overwrite content mapping.offset data), newFileSize⟩)

/-- A call of `write` that succeeds. -/
def next (page : PageSize) (writer : Writer) (call : List UInt8 × WriteCalls) : Option Writer :=
  match writer.write page call.2 call.1 with
  | (.ok, writer) => some writer
  | _ => none

/-- The file after some data have been copied to the page that its old end is in. -/
def laid (page : PageSize) (content : List UInt8) (offset : Nat) (data : List UInt8) : List UInt8 :=
  overwrite (truncate 0 content (offset + data.length)) (page.alignDown offset) data

variable {page : PageSize} {content done data : List UInt8} {offset place : Nat} {byte : UInt8}
  {call : List UInt8 × WriteCalls} {calls : List (List UInt8 × WriteCalls)} {writer after last : Writer}

/-- What a call that succeeds does to the file and to the offset: `ftruncate` refuses a size that is too
large for an `off_t`. -/
theorem next_cases (small : offset < 2 ^ 63) (fits : call.1.length < 2 ^ 63)
    (taken : next page ⟨some content, (offset : Int)⟩ call = some after) :
    offset + call.1.length < 2 ^ 63 ∧ after = if call.1 = [] then ⟨some content, (offset : Int)⟩
      else ⟨some (laid page content offset call.1), ((offset + call.1.length : Nat) : Int)⟩ := by
  have isOffset : offSize (offset : Int) = offset := by
    unfold offSize
    omega
  unfold next write at taken
  by_cases nothing : call.1 = []
  · rw [if_pos nothing] at taken ⊢
    rw [nothing]
    exact ⟨small, (Option.some.inj taken).symm⟩
  · by_cases representable : offset + call.1.length < 2 ^ 63
    · refine ⟨representable, ?_⟩
      have isSize : ((offset : Int) + (call.1.length : Int)).bmod (2 ^ 64) =
          ((offset + call.1.length : Nat) : Int) := by
        rw [Int.bmod_eq_of_le (by omega) (by omega)]
        omega
      simp only [if_neg nothing, isSize, isOffset] at taken ⊢
      split at taken
      · rename_i result ok
        split at ok
        · cases ok
        · unfold mmap at ok
          split at ok
          · cases ok
          · rename_i mapping isMapped
            split at isMapped
            · cases isMapped
              obtain rfl := Option.some.inj taken
              split at ok
              · cases ok
                rfl
              · cases ok
            · cases isMapped
      · cases taken
    · have negative : ((offset : Int) + (call.1.length : Int)).bmod (2 ^ 64) < 0 := by
        rw [Int.bmod_def]
        split <;> omega
      have refused : call.2.ftruncate = false ∨
          ((offset : Int) + (call.1.length : Int)).bmod (2 ^ 64) < 0 := .inr negative
      simp only [if_neg nothing, if_pos refused] at taken
      cases taken

/-- Bytes of zero are all that a call may leave in the wrong place. -/
def Zeros (bytes : List UInt8) : Prop :=
  ∀ byte ∈ bytes, byte = 0

/-- The data come to lie at the end of what has been written: nothing is written, or the end is at a page,
or only zeros are written over zeros. -/
def Lands (page : PageSize) (done data : List UInt8) : Prop :=
  data ≠ [] → page.size ∣ done.length ∨
    Zeros data ∧ Zeros (piece done (page.alignDown done.length) data.length)

theorem getElem?_laid : (laid page content offset data)[place]? =
    if page.alignDown offset ≤ place ∧ place < page.alignDown offset + data.length
    then data[place - page.alignDown offset]?
    else if place < offset + data.length then some (content[place]?.getD 0) else none := by
  have below := page.alignDown_le offset
  rw [laid, getElem?_overwrite (by rw [length_truncate]; omega), getElem?_truncate]

theorem length_laid : (laid page content offset data).length = offset + data.length := by
  have below := page.alignDown_le offset
  rw [laid, length_overwrite (by rw [length_truncate]; omega), length_truncate]

theorem alignDown_of_dvd (small : offset < 2 ^ 64) (atPage : page.size ∣ offset) :
    page.alignDown offset = offset := by
  rw [page.alignDown_eq small, Nat.div_mul_cancel atPage]

theorem zero_of_zeros {bytes : List UInt8} (zeros : Zeros bytes) {place : Nat}
    (within : place < bytes.length) : bytes[place]? = some 0 := by
  rw [List.getElem?_eq_getElem within, zeros _ (List.getElem_mem within)]

/-- Data that land where they belong are appended. -/
theorem laid_of_lands (small : done.length < 2 ^ 64) (some : data ≠ []) (lands : Lands page done data) :
    laid page done done.length data = done ++ data := by
  apply List.ext_getElem?
  intro place
  have below := page.alignDown_le done.length
  rw [getElem?_laid]
  obtain atPage | ⟨zeros, zeros'⟩ := lands some
  · rw [alignDown_of_dvd small atPage]
    by_cases early : place < done.length
    · rw [if_neg (by omega), if_pos (by omega), List.getElem?_append_left early,
        List.getElem?_eq_getElem early]
      rfl
    · rw [List.getElem?_append_right (by omega)]
      by_cases within : place < done.length + data.length
      · rw [if_pos (by omega)]
      · rw [if_neg (by omega), if_neg within, List.getElem?_eq_none (by omega)]
  · by_cases covered : page.alignDown done.length ≤ place ∧
        place < page.alignDown done.length + data.length
    · rw [if_pos covered, zero_of_zeros zeros (by omega)]
      by_cases early : place < done.length
      · have there : (piece done (page.alignDown done.length)
            data.length)[place - page.alignDown done.length]? = done[place]? := by
          rw [getElem?_piece, if_pos (by omega), Nat.add_sub_cancel' covered.1]
        have byte := List.getElem?_eq_getElem early
        rw [List.getElem?_append_left early, byte]
        rw [byte] at there
        rw [zeros' _ (List.mem_of_getElem? there)]
      · rw [List.getElem?_append_right (by omega), zero_of_zeros zeros (by omega)]
    · rw [if_neg covered]
      by_cases early : place < done.length
      · rw [if_pos (by omega), List.getElem?_append_left early, List.getElem?_eq_getElem early]
        rfl
      · rw [List.getElem?_append_right (by omega), List.getElem?_eq_none (by omega)]
        by_cases within : place < done.length + data.length
        · rw [if_pos within, zero_of_zeros zeros (by omega)]
          rfl
        · rw [if_neg within, List.getElem?_eq_none (by omega)]

/-- A file that has every byte of some content that is not zero where the content has it. -/
def Agrees (wanted found : List UInt8) : Prop :=
  ∀ (place : Nat) (byte : UInt8), byte ≠ 0 → wanted[place]? = some byte → found[place]? = some byte

/-- What has been laid elsewhere than behind the old end is nothing but zeros: the last other byte would
have to stand where the file was filled up with a zero. -/
theorem zeros_of_agrees (same : content.length = done.length)
    (inside : page.alignDown done.length < done.length)
    (agrees : Agrees (done ++ data) (laid page content done.length data)) : Zeros data := by
  have behind (rest : Nat) : ∀ place, place + rest = data.length →
      ∀ byte, data[place]? = some byte → byte = 0 := by
    induction rest using Nat.strong_induction_on with
    | _ rest ih =>
      intro place isRest byte there
      by_contra notZero
      have within : place < data.length := List.getElem?_eq_some_iff.mp there |>.1
      have found := agrees (done.length + place) byte notZero
        (by rw [List.getElem?_append_right (by omega), Nat.add_sub_cancel_left, there])
      rw [getElem?_laid] at found
      split at found
      · rename_i covered
        exact notZero (ih (page.alignDown done.length + data.length - (done.length + place))
          (by omega) _ (by omega) byte found)
      · rw [if_pos (by omega), List.getElem?_eq_none (by omega)] at found
        exact notZero (Option.some.inj found).symm
  intro byte member
  obtain ⟨place, there⟩ := List.mem_iff_getElem?.mp member
  have within : place < data.length := List.getElem?_eq_some_iff.mp there |>.1
  exact behind (data.length - place) place (by omega) byte there

/-- A file that has all it should after a call had all it should before, and the data landed. -/
theorem lands_of_agrees (small : done.length < 2 ^ 64) (same : content.length = done.length)
    (agrees : Agrees (done ++ data) (laid page content done.length data)) :
    Lands page done data ∧ Agrees done content := by
  have early {place : Nat} {byte : UInt8} (there : done[place]? = some byte) : place < done.length :=
    List.getElem?_eq_some_iff.mp there |>.1
  have before {place : Nat} {byte : UInt8} (notZero : byte ≠ 0) (there : done[place]? = some byte) :
      (laid page content done.length data)[place]? = some byte :=
    agrees place byte notZero (by rw [List.getElem?_append_left (early there), there])
  have old {place : Nat} {byte : UInt8} (there : done[place]? = some byte)
      (found : some (content[place]?.getD 0) = some byte) : content[place]? = some byte := by
    rw [List.getElem?_eq_getElem (by rw [same]; exact early there)] at found ⊢
    exact found
  by_cases atPage : page.size ∣ done.length
  · refine ⟨fun _ => .inl atPage, fun place byte notZero there => old there ?_⟩
    have found := before notZero there
    have := early there
    rwa [getElem?_laid, alignDown_of_dvd small atPage, if_neg (by omega), if_pos (by omega)] at found
  · have inside : page.alignDown done.length < done.length := by
      refine Nat.lt_of_le_of_ne (page.alignDown_le _) fun isPage => atPage ?_
      rw [← isPage]
      exact page.dvd_alignDown small
    have zeros := zeros_of_agrees same inside agrees
    have uncovered {place : Nat} {byte : UInt8} (notZero : byte ≠ 0) (there : done[place]? = some byte) :
        ¬ (page.alignDown done.length ≤ place ∧ place < page.alignDown done.length + data.length) := by
      intro covered
      have found := before notZero there
      rw [getElem?_laid, if_pos covered, zero_of_zeros zeros (by omega)] at found
      exact notZero (Option.some.inj found).symm
    refine ⟨fun _ => .inr ⟨zeros, ?_⟩, fun place byte notZero there => old there ?_⟩
    · intro byte member
      obtain ⟨place, there⟩ := List.mem_iff_getElem?.mp member
      rw [getElem?_piece] at there
      split at there
      · by_contra notZero
        exact uncovered notZero there (by omega)
      · cases there
    · have found := before notZero there
      have := early there
      rwa [getElem?_laid, if_neg (uncovered notZero there), if_pos (by omega)] at found

/-- The data of each call land, one behind the other. -/
def AllLand (page : PageSize) : List UInt8 → List (List UInt8 × WriteCalls) → Prop
  | _, [] => True
  | done, call :: calls => Lands page done call.1 ∧ AllLand page (done ++ call.1) calls

/-- The data of some calls, in their order. -/
def written (calls : List (List UInt8 × WriteCalls)) : List UInt8 :=
  calls.flatMap (·.1)

theorem written_cons : written (call :: calls) = call.1 ++ written calls := List.flatMap_cons

/-- The data are those of views, which have a size that a signed number of 64 bits can hold. -/
def Fit (calls : List (List UInt8 × WriteCalls)) : Prop :=
  ∀ call ∈ calls, call.1.length < 2 ^ 63

theorem run_cons
    (path : Path (Taken (next page)) ⟨some content, (done.length : Int)⟩ (call :: calls) last)
    (same : content.length = done.length) (small : done.length < 2 ^ 63) (fit : Fit (call :: calls)) :
    (done ++ call.1).length < 2 ^ 63 ∧ Fit calls ∧ ∃ content',
      Path (Taken (next page)) ⟨some content', ((done ++ call.1).length : Int)⟩ calls last ∧
      content'.length = (done ++ call.1).length ∧
      content' = if call.1 = [] then content else laid page content done.length call.1 := by
  cases path with
  | @cons _ second _ _ _ head tail =>
    obtain ⟨representable, isSecond⟩ := next_cases small (fit call (.head _)) head
    refine ⟨by rwa [List.length_append], fun call member => fit call (.tail _ member), ?_⟩
    by_cases nothing : call.1 = []
    · rw [if_pos nothing] at isSecond
      refine ⟨content, ?_, ?_, (if_pos nothing).symm⟩
      · rwa [isSecond, ← List.append_nil done, ← nothing] at tail
      · rw [nothing, List.append_nil, same]
    · rw [if_neg nothing, ← List.length_append] at isSecond
      refine ⟨laid page content done.length call.1, ?_, ?_, (if_neg nothing).symm⟩
      · rwa [isSecond] at tail
      · rw [length_laid, List.length_append]

/-- Calls whose data all land append them. -/
theorem run_of_allLand (path : Path (Taken (next page)) ⟨some done, (done.length : Int)⟩ calls last)
    (small : done.length < 2 ^ 63) (fit : Fit calls) (lands : AllLand page done calls) :
    last.file = some (done ++ written calls) := by
  induction calls generalizing done with
  | nil =>
    cases path
    exact congrArg some (List.append_nil done).symm
  | cons call calls ih =>
    obtain ⟨small', fit, content, tail, _, isContent⟩ := run_cons path rfl small fit
    rw [written_cons]
    have appended : content = done ++ call.1 := by
      by_cases nothing : call.1 = []
      · rw [isContent, if_pos nothing, nothing, List.append_nil]
      · rw [isContent, if_neg nothing, laid_of_lands (by omega) nothing lands.1]
    rw [appended] at tail
    rw [ih tail small' fit lands.2, List.append_assoc]

/-- Where the file ends up with all it should have, all data landed. -/
theorem allLand_of_agrees (path : Path (Taken (next page)) ⟨some content, (done.length : Int)⟩ calls last)
    (same : content.length = done.length) (small : done.length < 2 ^ 63) (fit : Fit calls)
    {final : List UInt8} (isFinal : last.file = some final)
    (agrees : Agrees (done ++ written calls) final) :
    AllLand page done calls ∧ Agrees done content := by
  induction calls generalizing done content with
  | nil =>
    cases path
    obtain rfl := Option.some.inj isFinal
    rw [written, List.flatMap_nil, List.append_nil] at agrees
    exact ⟨trivial, agrees⟩
  | cons call calls ih =>
    obtain ⟨small', fit, content', tail, same', isContent⟩ := run_cons path same small fit
    rw [written_cons, ← List.append_assoc] at agrees
    obtain ⟨later, now⟩ := ih tail same' small' fit agrees
    by_cases nothing : call.1 = []
    · rw [isContent, if_pos nothing, nothing, List.append_nil] at now
      exact ⟨⟨fun some => absurd nothing some, later⟩, now⟩
    · rw [isContent, if_neg nothing] at now
      obtain ⟨lands, before⟩ := lands_of_agrees (by omega) same now
      exact ⟨⟨lands, later⟩, before⟩

/-- Calls append their data to what was there just if all of them land. -/
theorem run_iff (path : Path (Taken (next page)) ⟨some done, (done.length : Int)⟩ calls last)
    (small : done.length < 2 ^ 63) (fit : Fit calls) :
    last.file = some (done ++ written calls) ↔ AllLand page done calls := by
  constructor
  · intro isFinal
    exact (allLand_of_agrees path rfl small fit isFinal fun _ _ _ there => there).1
  · exact run_of_allLand path small fit

theorem laid_zero (content data : List UInt8) : laid page content 0 data = data := by
  have isPage : page.alignDown 0 = 0 := Nat.le_zero.mp (page.alignDown_le 0)
  apply List.ext_getElem?
  intro place
  rw [getElem?_laid, isPage]
  by_cases within : place < data.length
  · rw [if_pos (by omega), Nat.sub_zero]
  · rw [if_neg (by omega), if_neg (by omega), List.getElem?_eq_none (by omega)]

/-- Calls without data leave everything as it is. -/
theorem run_of_nothing (path : Path (Taken (next page)) writer calls last) (nothing : written calls = []) :
    last = writer ∧ ∀ done, AllLand page done calls := by
  induction path with
  | nil _ => exact ⟨rfl, fun _ => trivial⟩
  | cons head _ ih =>
    rw [written_cons, List.append_eq_nil_iff] at nothing
    obtain ⟨same, lands⟩ := ih nothing.2
    unfold Taken next write at head
    rw [if_pos nothing.1] at head
    refine ⟨same.trans (Option.some.inj head).symm, fun done => ⟨fun some => absurd nothing.1 some, ?_⟩⟩
    exact lands _

/-- No call with data succeeds where the offset is negative. -/
theorem nothing_of_negative (path : Path (Taken (next page)) writer calls last)
    (negative : writer.curOffset < 0) : written calls = [] := by
  induction path with
  | nil _ => rfl
  | @cons writer second _ call _ head _ ih =>
    have refused : decide (0 ≤ writer.curOffset) = false := decide_eq_false (by omega)
    have idle : call.1 = [] ∧ second = writer := by
      unfold Taken next write at head
      by_cases nothing : call.1 = []
      · rw [if_pos nothing] at head
        exact ⟨nothing, (Option.some.inj head).symm⟩
      · simp only [if_neg nothing, mmap, refused, Bool.and_false, Bool.false_eq_true, false_and, if_false] at head
        split at head
        · rename_i result ok
          split at ok
          · cases ok
          · split at ok <;> cases ok
        · cases head
    obtain ⟨nothing, rfl⟩ := idle
    rw [written_cons, nothing, ih negative]
    rfl

/-- Calls with some data leave a file that reaches as far behind the offset as they are long. -/
theorem length_of_run (path : Path (Taken (next page)) ⟨some content, (offset : Int)⟩ calls last)
    (small : offset < 2 ^ 63) (fit : Fit calls) (some' : written calls ≠ []) :
    ∃ final, last.file = some final ∧ final.length = offset + (written calls).length := by
  induction calls generalizing content offset with
  | nil => exact absurd rfl some'
  | cons call calls ih =>
    have fit' : Fit calls := fun call member => fit call (.tail _ member)
    rw [written_cons] at some' ⊢
    cases path with
    | @cons _ second _ _ _ head tail =>
      obtain ⟨representable, isSecond⟩ := next_cases small (fit call (.head _)) head
      by_cases nothing : call.1 = []
      · rw [if_pos nothing] at isSecond
        rw [isSecond] at tail
        rw [nothing, List.nil_append] at some' ⊢
        exact ih tail small fit' some'
      · rw [if_neg nothing] at isSecond
        rw [isSecond] at tail
        by_cases rest : written calls = []
        · obtain ⟨rfl, _⟩ := run_of_nothing tail rest
          exact ⟨_, rfl, by rw [length_laid, rest, List.append_nil]⟩
        · obtain ⟨final, isFinal, long⟩ := ih tail representable fit' rest
          exact ⟨final, isFinal, by rw [long, List.length_append, Nat.add_assoc]⟩

/-- A file that is not appended to is cut by the first call that has any data. -/
theorem anew_iff (path : Path (Taken (next page)) ⟨some content, 0⟩ calls last) (fit : Fit calls)
    (some' : written calls ≠ []) : last.file = some (written calls) ↔ AllLand page [] calls := by
  induction calls with
  | nil => exact absurd rfl some'
  | cons call calls ih =>
    have fit' : Fit calls := fun call member => fit call (.tail _ member)
    rw [written_cons] at some' ⊢
    cases path with
    | @cons _ second _ _ _ head tail =>
      obtain ⟨representable, isSecond⟩ := next_cases (by decide) (fit call (.head _)) head
      by_cases nothing : call.1 = []
      · rw [if_pos nothing] at isSecond
        rw [isSecond] at tail
        rw [nothing, List.nil_append] at some'
        rw [AllLand, nothing, List.append_nil, List.nil_append, ih tail fit' some']
        simp [Lands]
      · have lands : Lands page [] call.1 := fun _ => .inl (Nat.dvd_zero _)
        rw [if_neg nothing, laid_zero, Nat.zero_add] at isSecond
        rw [isSecond] at tail
        rw [run_iff tail (by omega) fit', AllLand, List.nil_append]
        simp [lands]

/-- A writer that does not append goes on where it has been before it was opened. -/
theorem reopened_iff (path : Path (Taken (next page)) writer calls last) (found : writer.file = some content)
    (large : -2 ^ 63 ≤ writer.curOffset) (small : writer.curOffset < 2 ^ 63) (fit : Fit calls) :
    last.file = some (written calls) ↔
      AllLand page [] calls ∧ if written calls = [] then content = [] else writer.curOffset = 0 := by
  by_cases nothing : written calls = []
  · obtain ⟨rfl, lands⟩ := run_of_nothing path nothing
    rw [if_pos nothing, nothing, found, Option.some.injEq]
    exact ⟨fun empty => ⟨lands [], empty⟩, fun both => both.2⟩
  · rw [if_neg nothing]
    obtain ⟨file, offset⟩ := writer
    dsimp only at found large small ⊢
    subst found
    have natural : 0 ≤ offset := by
      by_contra negative
      exact nothing (nothing_of_negative path (Int.not_le.mp negative))
    obtain ⟨offset, rfl⟩ := Int.eq_ofNat_of_zero_le natural
    by_cases zero : offset = 0
    · subst zero
      rw [anew_iff path fit nothing]
      simp
    · obtain ⟨final, isFinal, long⟩ := length_of_run path (by omega) fit nothing
      refine iff_of_false (fun same => ?_) fun both => zero (Int.ofNat.inj both.2)
      obtain rfl := Option.some.inj (isFinal.symm.trans same)
      omega

end Writer

open Writer

/-- After calls that all succeed, the file has its old content, or none, and then all the data just if
each call with data begins at a page or writes zeros over zeros, and a file that is not appended to was
empty, or has been written to by a writer whose offset was zero when it was opened. -/
theorem file_content_iff (page : PageSize) (writer : Writer) (initial : List UInt8) (isAppend : Bool)
    (calls : List (List UInt8 × WriteCalls)) (last : Writer) (large : -2 ^ 63 ≤ writer.curOffset)
    (small : writer.curOffset < 2 ^ 63) (fits : initial.length < 2 ^ 63) (fit : Fit calls)
    (path : Path (Taken (next page)) (openFile writer (some initial) isAppend).2 calls last) :
    last.file = some ((if isAppend then initial else []) ++ written calls) ↔
      AllLand page (if isAppend then initial else []) calls ∧
        (isAppend = false → if written calls = [] then initial = [] else writer.curOffset = 0) := by
  cases isAppend with
  | true =>
    simp only [if_true, reduceCtorEq, false_imp_iff, and_true]
    exact run_iff path fits fit
  | false =>
    simp only [Bool.false_eq_true, if_false, List.nil_append, true_imp_iff]
    have opened : Path (Taken (next page)) { writer with file := some initial } calls last := path
    have exact_iff := reopened_iff opened rfl large small fit
    exact exact_iff

/-- The first byte of a new file. -/
theorem file_content_iff_new :
    ∃ last, Path (Taken (next ⟨4096, 12, by decide, rfl⟩)) (openFile .construct (some []) true).2
        [([7], ⟨true, true, true⟩)] last ∧ last.file = some [7] := by
  have path : Path (Taken (next ⟨4096, 12, by decide, rfl⟩)) (openFile .construct (some []) true).2
      [([7], ⟨true, true, true⟩)] ⟨some [7], 1⟩ := exec_eq_some_iff.mp (by decide +kernel)
  have fit : Fit [([7], ⟨true, true, true⟩)] := by
    intro call member
    obtain rfl := List.mem_singleton.mp member
    exact show [7].length < 2 ^ 63 by decide
  refine ⟨_, path, ?_⟩
  refine (file_content_iff _ .construct [] true _ _ (by decide) (by decide) (by decide) fit path).mpr
    ⟨⟨fun _ => .inl (Nat.dvd_zero _), trivial⟩, ?_⟩
  exact fun appends => absurd appends (by decide)

/-- A byte appended to a file of one byte replaces it. -/
theorem appended_byte_replaces :
    ∃ last, Path (Taken (next ⟨4096, 12, by decide, rfl⟩)) (openFile .construct (some [1]) true).2
        [([2], ⟨true, true, true⟩)] last ∧ last.file ≠ some [1, 2] := by
  refine ⟨⟨some [2, 0], 2⟩, exec_eq_some_iff.mp (by decide +kernel), by decide⟩

/-- A writer that is closed and opened once more, not to append, goes on behind its old offset. -/
example : let writer := close ⟨some [1], 1⟩
    next ⟨4096, 12, by decide, rfl⟩ (openFile writer (some [1]) false).2 ([2], ⟨true, true, true⟩) =
      some ⟨some [2, 0], 2⟩ := by
  decide +kernel

end BTool.MMapFile
