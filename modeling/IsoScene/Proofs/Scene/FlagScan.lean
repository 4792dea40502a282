import IsoScene.Proofs.Failure
import IsoScene.Proofs.Scene.FlagWords

/-! # Scanning a line for flags

The scan of a line goes from match to match, with a cursor into the line. `LineScan.Accounts` is
what it keeps to: in front of some place of the line, what stays are the words that are no flags,
in their order. Word by word, each match either is a whole flag word and moves the scan on, or lies
inside a word and changes nothing. Hence a line is read as its words are (`extractLine_words`).
-/

namespace IsoScene

open Text FlagWord

def isFlagWord (w : List Char) : Bool := (ofWord? w).isSome

def flagsAmong (ws : List (List Char)) : List FlagWord := ws.filterMap ofWord?

/-- The words that stay of a line. A line of flags does not stay at all. -/
def keptWords (ws : List (List Char)) : Option (List (List Char)) :=
  let others := ws.filter (!isFlagWord ·)
  if others = [] ∧ ws ≠ [] then none else some others

theorem flagsAmong_append (ws others : List (List Char)) :
    flagsAmong (ws ++ others) = flagsAmong ws ++ flagsAmong others :=
  List.filterMap_append

theorem flagsAmong_eq_nil {ws : List (List Char)} (none : ∀ w ∈ ws, isFlagWord w = false) :
    flagsAmong ws = [] := by
  rw [flagsAmong, List.filterMap_eq_nil_iff]
  intro w member
  simpa [isFlagWord] using none w member

theorem keptWords_eq_some {ws : List (List Char)} (none : ∀ w ∈ ws, isFlagWord w = false) :
    keptWords ws = some ws := by
  have all : ws.filter (!isFlagWord ·) = ws := by
    rw [List.filter_eq_self]
    intro w member
    simp [none w member]
  simp [keptWords, all]

namespace LineScan

/-! ## The invariant -/

/-- The scan has read the start of a line, up to the end of `front`. -/
structure Accounts (scan : LineScan) (front : List Char) : Prop where
  cursor_le : scan.cursor ≤ front.length
  foundFlag_eq : scan.foundFlag = (words front).any isFlagWord
  words_remaining : words (scan.remaining front) = (words front).filter (!isFlagWord ·)
  remaining_sublist : (scan.remaining front).Sublist front
  endsBlank : EndsBlank front → EndsBlank (scan.remaining front)

theorem remaining_append {scan : LineScan} {front : List Char}
    (cursor_le : scan.cursor ≤ front.length) (s : List Char) :
    scan.remaining (front ++ s) = scan.remaining front ++ s := by
  simp [remaining, List.drop_append_of_le_length cursor_le]

/-- The scan behind a flag word. -/
def passFlag (scan : LineScan) (front w : List Char) : LineScan :=
  ⟨scan.flags, scan.remaining front, (front ++ w).length, true⟩

theorem remaining_passFlag (scan : LineScan) (front w : List Char) :
    (scan.passFlag front w).remaining (front ++ w) = scan.remaining front := by
  simp [passFlag, remaining]

namespace Accounts

theorem start (flags : Flags) : (start flags).Accounts [] where
  cursor_le := Nat.zero_le _
  foundFlag_eq := rfl
  words_remaining := rfl
  remaining_sublist := .slnil
  endsBlank := id

variable {scan : LineScan} {front : List Char} (accounts : scan.Accounts front)
include accounts

theorem blank {c : Char} (blank : isBlank c = true) : scan.Accounts (front ++ [c]) := by
  have stays := remaining_append accounts.cursor_le [c]
  have sameWords : words (front ++ [c]) = words front := by
    simp [words_append_blank front [] blank]
  constructor
  · have := accounts.cursor_le
    simp only [List.length_append]
    omega
  · rw [sameWords, accounts.foundFlag_eq]
  · rw [stays, words_append_blank _ [] blank, words_nil, List.append_nil, sameWords,
      accounts.words_remaining]
  · rw [stays]
    exact accounts.remaining_sublist.append_right [c]
  · intro _
    rw [stays]
    exact endsBlank_concat _ blank

variable {w : List Char} (isWord : IsWord w) (endsBlank : EndsBlank front)
include isWord endsBlank

theorem other (notFlag : isFlagWord w = false) : scan.Accounts (front ++ w) := by
  have stays := remaining_append accounts.cursor_le w
  have oneMore := words_append_word endsBlank isWord
  constructor
  · have := accounts.cursor_le
    simp only [List.length_append]
    omega
  · simp [oneMore, notFlag, accounts.foundFlag_eq]
  · rw [stays, words_append_word (accounts.endsBlank endsBlank) isWord, accounts.words_remaining,
      oneMore]
    simp [notFlag]
  · rw [stays]
    exact accounts.remaining_sublist.append_right w
  · -- The front does not end in a blank now.
    intro ends
    obtain ⟨before, c, rfl⟩ := (List.eq_nil_or_concat w).resolve_left isWord.ne_nil
    have isBlankToo := ends c (by simp)
    simp [isWord.not_blank c (by simp)] at isBlankToo

theorem flag (isFlag : isFlagWord w = true) : (scan.passFlag front w).Accounts (front ++ w) := by
  have oneMore := words_append_word endsBlank isWord
  constructor
  · exact Nat.le_refl _
  · simp [passFlag, oneMore, isFlag]
  · rw [remaining_passFlag, accounts.words_remaining, oneMore]
    simp [isFlag]
  · rw [remaining_passFlag]
    exact accounts.remaining_sublist.trans (List.sublist_append_left front w)
  · intro _
    rw [remaining_passFlag]
    exact accounts.endsBlank endsBlank

end Accounts

/-! ## Steps -/

theorem next_of_not_isWord {line : List Char} {scan : LineScan} {o : Pattern.Occurrence}
    (inside : isWord line o = false) : next line scan o = .ok scan := by
  simp [next, inside]

theorem foldlM_next_of_not_isWord {line : List Char} {scan : LineScan}
    {within : List Pattern.Occurrence} (inside : ∀ o ∈ within, isWord line o = false) :
    within.foldlM (next line) scan = .ok scan := by
  induction within with
  | nil => rfl
  | cons o within ih =>
    obtain ⟨first, later⟩ := List.forall_mem_cons.mp inside
    rw [List.foldlM_cons, next_of_not_isWord first, ok_bind, ih later]

section
variable {front w rest : List Char} (atBreak : AtBreak rest)
include atBreak

theorem next_of_flagWord (endsBlank : EndsBlank front) (scan : LineScan) (f : FlagWord) :
    next (front ++ (w ++ rest)) scan ⟨front.length, w, f.groups, rest⟩ =
      (scan.flags.set f).map fun flags => { scan.passFlag front w with flags } := by
  have before : (front ++ (w ++ rest)).take front.length = front := by simp
  have behind : (front ++ (w ++ rest)).drop (front.length + w.length) = rest := by
    rw [← List.append_assoc, ← List.length_append, List.drop_left]
  have isWhole : LineScan.isWord (front ++ (w ++ rest)) ⟨front.length, w, f.groups, rest⟩ = true := by
    rw [LineScan.isWord, Pattern.Occurrence.stop, before, behind, Bool.and_eq_true]
    constructor
    · rw [Option.all_eq_true_iff_get]
      intro isSome
      exact endsBlank _ (Option.get_mem isSome)
    · rw [Option.all_eq_true_iff_get]
      intro isSome
      exact atBreak _ (Option.get_mem isSome)
  rw [next, if_pos isWhole, ofMatch_groups, before]
  cases scan.flags.set f with
  | error e => rfl
  | ok flags => simp [Except.map, passFlag, remaining, Pattern.Occurrence.stop]

variable (isWord : IsWord w)
include isWord

/-- A match inside a word is not a word itself: either it starts behind the first character, or it
ends in front of the last. -/
theorem not_isWord_of_inside {o : Pattern.Occurrence} (notFlag : ofWord? w = none)
    {u v : List Char} (split : w = u ++ v) (position : o.start = front.length + u.length)
    (isMatch : flagPattern.first? (v ++ rest) = some o.found) :
    LineScan.isWord (front ++ (w ++ rest)) o = false := by
  rw [LineScan.isWord, Bool.and_eq_false_iff]
  rcases List.eq_nil_or_concat u with rfl | ⟨before, c, rfl⟩
  · right
    rw [List.nil_append] at split
    rw [← split] at isMatch
    obtain ⟨-, isTaken⟩ := first?_of_not_flagWord isWord.not_blank atBreak notFlag isMatch
    have behind : (front ++ (w ++ rest)).drop o.stop = '=' :: rest := by
      have line : front ++ (w ++ rest) = (front ++ o.found.taken) ++ '=' :: rest := by
        rw [isTaken]
        simp
      have stop : o.stop = (front ++ o.found.taken).length := by
        simp [Pattern.Occurrence.stop, position]
      rw [line, stop, List.drop_left]
    rw [behind]
    rfl
  · left
    have line : front ++ (w ++ rest) = (front ++ before.concat c) ++ (v ++ rest) := by
      simp [split]
    have taken : (front ++ (w ++ rest)).take o.start = front ++ before.concat c := by
      rw [line, position, ← List.length_append, List.take_left]
    have visible : isBlank c = false := isWord.not_blank c (by simp [split])
    simp [taken, visible]

/-- No match goes on behind a word. -/
theorem length_taken_le {u v : List Char} {m : Match} (split : w = u ++ v)
    (isMatch : flagPattern.first? (v ++ rest) = some m) : m.taken.length ≤ v.length := by
  have visible : ∀ c ∈ v, isBlank c = false := fun c member =>
    isWord.not_blank c (by simp [split, member])
  cases read : ofWord? v with
  | none =>
    obtain ⟨-, isTaken⟩ := first?_of_not_flagWord visible atBreak read isMatch
    simp [congrArg List.length isTaken]
  | some f =>
    rw [first?_of_flagWord visible atBreak read, Option.some.injEq] at isMatch
    simp [← isMatch]

end

/-! ## Runs -/

/-- The scan of the rest of a line, from a place where no word is open. -/
theorem foldlM_next {line front s : List Char} (split : line = front ++ s) {scan : LineScan}
    (accounts : scan.Accounts front) (starts : AtBreak s ∨ EndsBlank front) :
    ∃ last : LineScan, last.Accounts line ∧
      ∀ flags, (flagPattern.occurrencesFrom front.length 0 s).foldlM (next line)
          { scan with flags } =
        ((flagsAmong (words s)).foldlM Flags.set flags).map fun flags => { last with flags } := by
  -- The text is passed blank by blank and word by word; `accounts` is kept at each of these places.
  induction s using wordInduction generalizing front scan with
  | nil =>
    rw [List.append_nil] at split
    exact ⟨scan, split ▸ accounts, fun flags => rfl⟩
  | blank c s blank ih =>
    have noMatch : flagPattern.first? (c :: s) = none := by
      apply first?_of_no_dash
      rintro d isHead rfl
      obtain rfl : c = '-' := by simpa using isHead
      exact absurd blank (by decide)
    have later := @ih (front ++ [c]) (by simp [split]) scan (accounts.blank blank)
      (.inr (endsBlank_concat front blank))
    simpa [Pattern.occurrencesFrom_cons_of_none noMatch, blank] using later
  | word w s isWord atBreak ih =>
    have endsBlank : EndsBlank front := by
      refine starts.resolve_left fun atWord => ?_
      obtain ⟨c, w, rfl⟩ := List.exists_cons_of_ne_nil isWord.ne_nil
      have blank := atWord c rfl
      simp [isWord.head_not_blank] at blank
    have isLine : line = (front ++ w) ++ s := by simp [split]
    cases read : ofWord? w with
    | some f =>
      -- The word is a match of its own.
      have isFlag : isFlagWord w = true := by simp [isFlagWord, read]
      obtain ⟨last, lastAccounts, run⟩ := ih isLine
        (accounts.flag isWord endsBlank isFlag) (.inl atBreak)
      refine ⟨last, lastAccounts, fun flags => ?_⟩
      have isMatch := first?_of_flagWord isWord.not_blank atBreak read
      rw [Pattern.occurrencesFrom_of_some isWord.ne_nil isMatch, List.foldlM_cons,
        ← List.length_append, words_word_append isWord atBreak, flagsAmong,
        List.filterMap_cons_some read, List.foldlM_cons]
      nth_rewrite 1 [split]
      rw [next_of_flagWord atBreak endsBlank]
      cases flags.set f with
      | error e => rfl
      | ok flags => exact run flags
    | none =>
      -- There may be matches inside the word, but none is a word itself.
      have notFlag : isFlagWord w = false := by simp [isFlagWord, read]
      obtain ⟨last, lastAccounts, run⟩ := ih isLine
        (accounts.other isWord endsBlank notFlag) (.inl atBreak)
      refine ⟨last, lastAccounts, fun flags => ?_⟩
      obtain ⟨within, found, inside⟩ := Pattern.occurrencesFrom_append
        (fun u v m => length_taken_le atBreak isWord) front.length (Nat.zero_le w.length)
      have unused : ∀ o ∈ within, LineScan.isWord line o = false := by
        intro o member
        obtain ⟨u, v, splitWord, -, position, isMatch⟩ := inside o member
        rw [split]
        exact not_isWord_of_inside atBreak isWord read splitWord position isMatch
      rw [found, List.foldlM_append, foldlM_next_of_not_isWord unused, ok_bind,
        ← List.length_append, run flags, words_word_append isWord atBreak]
      simp [flagsAmong, read]

end LineScan

/-- A line is read as its words are: its flags are set in order, and what stays of it are the other
words. -/
theorem extractLine_words (line : List Char) :
    ∃ kept : Option (List Char),
      (∀ flags : Flags, flags.extractLine line =
        ((flagsAmong (words line)).foldlM Flags.set flags).map (·, kept)) ∧
      kept.map words = keptWords (words line) ∧ ∀ text ∈ kept, text.Sublist line := by
  obtain ⟨last, accounts, run⟩ := LineScan.foldlM_next (List.nil_append line).symm
    (LineScan.Accounts.start .standard) (.inr (by simp [EndsBlank]))
  let remaining := last.remaining line
  have stays : words remaining = (words line).filter (!isFlagWord ·) := accounts.words_remaining
  -- Nothing but flags was in the line if a flag was found and no other word stays.
  have isUsedUp : (last.foundFlag && remaining.all isBlank) = true ↔
      (words line).filter (!isFlagWord ·) = [] ∧ words line ≠ [] := by
    rw [Bool.and_eq_true, ← words_eq_nil_iff, stays, accounts.foundFlag_eq, and_comm]
    refine and_congr_right fun noOthers => ?_
    rw [List.filter_eq_nil_iff] at noOthers
    constructor
    · intro found empty
      simp [empty] at found
    · intro nonempty
      obtain ⟨w, member⟩ := List.exists_mem_of_ne_nil _ nonempty
      exact List.any_eq_true.mpr ⟨w, member, by simpa using noOthers w member⟩
  refine ⟨if last.foundFlag && remaining.all isBlank then none else some remaining, ?_, ?_, ?_⟩
  · intro flags
    have scanned : (flagPattern.occurrences line).foldlM (LineScan.next line)
        (LineScan.start flags) =
        ((flagsAmong (words line)).foldlM Flags.set flags).map fun flags => { last with flags } :=
      run flags
    rw [Flags.extractLine, scanned]
    cases (flagsAmong (words line)).foldlM Flags.set flags <;> rfl
  · simp only [keptWords]
    by_cases used : (last.foundFlag && remaining.all isBlank) = true
    · rw [if_pos used, if_pos (isUsedUp.mp used), Option.map_none]
    · rw [if_neg used, if_neg (mt isUsedUp.mpr used), Option.map_some, stays]
  · intro text member
    rw [Option.mem_def, Option.ite_none_left_eq_some, Option.some.injEq] at member
    rw [← member.2]
    exact accounts.remaining_sublist

end IsoScene
