import IsoScene.Proofs.Text.Patterns
import IsoScene.Proofs.Text.Words
import IsoScene.Scene.Flag
import Mathlib.Data.List.TakeWhile

/-! # Flag words

A flag can be described by its word alone, without a pattern and without a line around it.

* `FlagWord.Spells` — the words that write a flag.
* `FlagWord.ofWord?` — reads a word (`ofWord?_eq_some_iff`).

The pattern agrees with this. At the start of a flag word its match is the whole word
(`first?_of_flagWord`). At the start of other text it takes less than what stands there up to the
next blank, if it matches at all (`first?_of_not_flagWord`).
-/

namespace IsoScene

open Text

namespace FlagWord

def body (f : FlagWord) : List Char := f.key ++ f.value.elim [] ('=' :: ·)

/-- There is a key, it ends at the equals sign, and a value is not empty. -/
structure IsProper (f : FlagWord) : Prop where
  key_ne_nil : f.key ≠ []
  equals_not_mem_key : '=' ∉ f.key
  value_ne_nil : f.value ≠ some []

/-- The word writes the flag. Two dashes are taken off where what is behind them can be read; the
second dash belongs to the key only if not. -/
inductive Spells (f : FlagWord) : List Char → Prop where
  | twoDashes (proper : f.IsProper) : Spells f ('-' :: '-' :: f.body)
  | oneDash (proper : f.IsProper) (onlyOne : ∀ g : FlagWord, g.IsProper → f.body ≠ '-' :: g.body) :
      Spells f ('-' :: f.body)

/-- Reads the text behind the dashes. -/
def ofBody? (body : List Char) : Option FlagWord :=
  let key := body.takeWhile (· != '=')
  if key = [] then none
  else
    match body.dropWhile (· != '=') with
    | [] => some ⟨key, none⟩
    | [_] => none
    | _ :: value => some ⟨key, some value⟩

def ofWord? : List Char → Option FlagWord
  | '-' :: '-' :: body => (ofBody? body).or (ofBody? ('-' :: body))
  | '-' :: body => ofBody? body
  | _ => none

/-! ## Bodies -/

structure IsKey (key : List Char) : Prop where
  ne_nil : key ≠ []
  equals_not_mem : '=' ∉ key

/-- A body has no key, or a key alone, or an equals sign without a value, or a value. -/
@[elab_as_elim]
theorem bodyCases {motive : List Char → Prop}
    (keyless : ∀ rest, (∀ c ∈ rest.head?, c = '=') → motive rest)
    (bare : ∀ key, IsKey key → motive key)
    (unfinished : ∀ key, IsKey key → motive (key ++ ['=']))
    (valued : ∀ key value, IsKey key → value ≠ [] → motive (key ++ '=' :: value))
    (body : List Char) : motive body := by
  let key := body.takeWhile (· != '=')
  have split : body = key ++ body.dropWhile (· != '=') := (List.takeWhile_append_dropWhile).symm
  have noEquals : '=' ∉ key := fun member => by simpa using List.mem_takeWhile_imp member
  by_cases noKey : key = []
  · apply keyless
    intro c isHead
    have stops := List.head?_dropWhile_not (· != '=') body
    rw [noKey, List.nil_append] at split
    rw [← split, Option.mem_def.mp isHead] at stops
    simpa using stops
  · have isKey : IsKey key := ⟨noKey, noEquals⟩
    cases behind : body.dropWhile (· != '=') with
    | nil =>
      rw [split, behind, List.append_nil]
      exact bare key isKey
    | cons c value =>
      have stops := List.head?_dropWhile_not (· != '=') body
      obtain rfl : c = '=' := by simpa [behind] using stops
      rw [split, behind]
      by_cases noValue : value = []
      · rw [noValue]
        exact unfinished key isKey
      · exact valued key value isKey noValue

section
variable {key : List Char} (isKey : IsKey key)
include isKey

theorem cut_key (rest : List Char) (stops : ∀ c ∈ rest.head?, c = '=') :
    (key ++ rest).takeWhile (· != '=') = key ∧ (key ++ rest).dropWhile (· != '=') = rest := by
  have members : ∀ c ∈ key, (c != '=') = true := by
    intro c member
    simpa using fun same : c = '=' => isKey.equals_not_mem (same ▸ member)
  rw [List.takeWhile_append_of_pos members, List.dropWhile_append_of_pos members]
  cases rest with
  | nil => simp
  | cons c rest => simp [stops c rfl]

theorem ofBody?_bare : ofBody? key = some ⟨key, none⟩ := by
  obtain ⟨taken, left⟩ := cut_key isKey [] (by simp)
  rw [List.append_nil] at taken left
  simp [ofBody?, taken, left, isKey.ne_nil]

theorem ofBody?_unfinished : ofBody? (key ++ ['=']) = none := by
  obtain ⟨taken, left⟩ := cut_key isKey ['='] (by simp)
  simp [ofBody?, taken, left]

theorem ofBody?_valued {value : List Char} (nonempty : value ≠ []) :
    ofBody? (key ++ '=' :: value) = some ⟨key, some value⟩ := by
  obtain ⟨taken, left⟩ := cut_key isKey ('=' :: value) (by simp)
  cases value with
  | nil => exact absurd rfl nonempty
  | cons c value => simp [ofBody?, taken, left, isKey.ne_nil]

end

theorem ofBody?_keyless {rest : List Char} (keyless : ∀ c ∈ rest.head?, c = '=') :
    ofBody? rest = none := by
  cases rest with
  | nil => rfl
  | cons c rest => simp [ofBody?, keyless c rfl]

theorem ofBody?_eq_some_iff {body : List Char} {f : FlagWord} :
    ofBody? body = some f ↔ f.IsProper ∧ body = f.body := by
  constructor
  · intro read
    induction body using bodyCases with
    | keyless rest keyless => simp [ofBody?_keyless keyless] at read
    | bare key isKey =>
      obtain rfl : ⟨key, none⟩ = f := by simpa [ofBody?_bare isKey] using read
      exact ⟨⟨isKey.ne_nil, isKey.equals_not_mem, by simp⟩, by simp [FlagWord.body]⟩
    | unfinished key isKey => simp [ofBody?_unfinished isKey] at read
    | valued key value isKey nonempty =>
      obtain rfl : ⟨key, some value⟩ = f := by simpa [ofBody?_valued isKey nonempty] using read
      exact ⟨⟨isKey.ne_nil, isKey.equals_not_mem, by simpa using nonempty⟩, rfl⟩
  · rintro ⟨proper, rfl⟩
    obtain ⟨key, value⟩ := f
    have isKey : IsKey key := ⟨proper.key_ne_nil, proper.equals_not_mem_key⟩
    cases value with
    | none => simpa [FlagWord.body] using ofBody?_bare isKey
    | some value => exact ofBody?_valued isKey fun empty => proper.value_ne_nil (by rw [empty])

theorem ofBody?_eq_none_iff {body : List Char} :
    ofBody? body = none ↔ ∀ f : FlagWord, f.IsProper → body ≠ f.body := by
  rw [Option.eq_none_iff_forall_ne_some]
  simp only [ne_eq, ofBody?_eq_some_iff, not_and]

/-- Reading a word is the reverse of writing it. -/
theorem ofWord?_eq_some_iff {w : List Char} {f : FlagWord} : ofWord? w = some f ↔ f.Spells w := by
  constructor
  · intro read
    rw [ofWord?.eq_def] at read
    split at read
    · next body =>
      cases behind : ofBody? body with
      | some g =>
        obtain rfl : g = f := by simpa [behind] using read
        obtain ⟨proper, rfl⟩ := ofBody?_eq_some_iff.mp behind
        exact .twoDashes proper
      | none =>
        rw [behind, Option.none_or] at read
        obtain ⟨proper, isBody⟩ := ofBody?_eq_some_iff.mp read
        rw [isBody]
        refine .oneDash proper fun g properToo same => ?_
        rw [← isBody, List.cons.injEq] at same
        exact ofBody?_eq_none_iff.mp behind g properToo same.2
    · next body notTwo =>
      obtain ⟨proper, rfl⟩ := ofBody?_eq_some_iff.mp read
      exact .oneDash proper fun g _ same => notTwo g.body same
    · simp at read
  · rintro (proper | ⟨proper, onlyOne⟩)
    · simp [ofWord?, ofBody?_eq_some_iff.mpr ⟨proper, rfl⟩]
    · have read : ofBody? f.body = some f := ofBody?_eq_some_iff.mpr ⟨proper, rfl⟩
      rw [ofWord?.eq_def]
      split
      · next body same =>
        obtain ⟨-, isBody⟩ := List.cons.inj same
        have unread : ofBody? body = none := ofBody?_eq_none_iff.mpr fun g properToo isToo =>
          onlyOne g properToo (by rw [isBody, isToo])
        rw [unread, Option.none_or, ← isBody, read]
      · next body notTwo same =>
        obtain ⟨-, rfl⟩ := List.cons.inj same
        exact read
      · next notOne => exact absurd rfl (notOne f.body)

/-- What a match of the pattern remembers of the flag. -/
def groups (f : FlagWord) : List (Nat × List Char) := (1, f.key) :: (f.value.map (2, ·)).toList

theorem ofMatch_groups (f : FlagWord) (taken rest : List Char) :
    ofMatch ⟨taken, f.groups, rest⟩ = f := by
  obtain ⟨key, value⟩ := f
  cases value <;> rfl

end FlagWord

/-! ## Matches -/

open FlagWord

def valuePattern : Pattern :=
  .option (.sequence (.char (· == '=')) (.group 2 (.run isValueChar)))

def bodyPattern : Pattern := .sequence (.group 1 (.run isKeyChar)) valuePattern

theorem flagPattern_eq : flagPattern =
    .sequence (.char (· == '-')) (.sequence (.option (.char (· == '-'))) bodyPattern) := rfl

section
variable {rest : List Char} (atBreak : AtBreak rest)
include atBreak

theorem not_isKeyChar_of_atBreak : ∀ c ∈ rest.head?, isKeyChar c = false := by
  intro c isHead
  simp [isKeyChar, atBreak c isHead]

theorem not_isValueChar_of_atBreak : ∀ c ∈ rest.head?, isValueChar c = false := by
  intro c isHead
  simp [isValueChar, atBreak c isHead]

theorem first?_value_of_atBreak : valuePattern.first? rest = some (.nothing rest) := by
  cases rest with
  | nil => rfl
  | cons c rest =>
    have ne : c ≠ '=' := by
      rintro rfl
      exact absurd (atBreak '=' rfl) (by decide)
    simp [valuePattern, Pattern.first?_option, Pattern.first?_sequence, Pattern.ways, ne]

theorem first?_value_unfinished :
    valuePattern.first? ('=' :: rest) = some (.nothing ('=' :: rest)) := by
  have noValue := Pattern.first?_run_eq_none (not_isValueChar_of_atBreak atBreak)
  simp [valuePattern, Pattern.first?_option, Pattern.first?_sequence, Pattern.ways,
    Pattern.first?_group, noValue]

theorem first?_value {value : List Char} (nonempty : value ≠ [])
    (visible : ∀ c ∈ value, isBlank c = false) :
    valuePattern.first? ('=' :: (value ++ rest)) = some ⟨'=' :: value, [(2, value)], rest⟩ := by
  have members : ∀ c ∈ value, isValueChar c = true := fun c member => by
    simp [isValueChar, visible c member]
  have taken := Pattern.first?_run nonempty members (not_isValueChar_of_atBreak atBreak)
  simp [valuePattern, Pattern.first?_option, Pattern.first?_sequence, Pattern.ways,
    Pattern.first?_group, taken, Match.named, Match.followedBy]

end

theorem first?_value_isSome (s : List Char) : (valuePattern.first? s).isSome = true := by
  simp [valuePattern, Pattern.first?_option]

theorem first?_body {key rest : List Char} (isKey : IsKey key)
    (visible : ∀ c ∈ key, isBlank c = false) (stops : ∀ c ∈ rest.head?, isKeyChar c = false) :
    bodyPattern.first? (key ++ rest) =
      (valuePattern.first? rest).map (Match.followedBy ⟨key, [(1, key)], rest⟩) := by
  have members : ∀ c ∈ key, isKeyChar c = true := by
    intro c member
    have ne : c ≠ '=' := fun same => isKey.equals_not_mem (same ▸ member)
    simp [isKeyChar, ne, visible c member]
  rw [bodyPattern, Pattern.first?_sequence_of_total first?_value_isSome, Pattern.first?_group,
    Pattern.first?_run isKey.ne_nil members stops]
  rfl

theorem first?_body_keyless {front rest : List Char} (keyless : ∀ c ∈ front.head?, c = '=')
    (atBreak : AtBreak rest) : bodyPattern.first? (front ++ rest) = none := by
  have stops : ∀ c ∈ (front ++ rest).head?, isKeyChar c = false := by
    cases front with
    | nil => exact not_isKeyChar_of_atBreak atBreak
    | cons c front =>
      obtain rfl := keyless c rfl
      simp [isKeyChar]
  rw [bodyPattern, Pattern.first?_sequence_of_total first?_value_isSome, Pattern.first?_group,
    Pattern.first?_run_eq_none stops]
  rfl

section
variable {front rest : List Char} (visible : ∀ c ∈ front, isBlank c = false)
  (atBreak : AtBreak rest)
include visible atBreak

theorem first?_body_of_some {f : FlagWord} (read : ofBody? front = some f) :
    bodyPattern.first? (front ++ rest) = some ⟨front, f.groups, rest⟩ := by
  induction front using bodyCases with
  | keyless front keyless => simp [ofBody?_keyless keyless] at read
  | unfinished key isKey => simp [ofBody?_unfinished isKey] at read
  | bare key isKey =>
    obtain rfl : ⟨key, none⟩ = f := by simpa [ofBody?_bare isKey] using read
    rw [first?_body isKey visible (not_isKeyChar_of_atBreak atBreak),
      first?_value_of_atBreak atBreak]
    simp [Match.followedBy, Match.nothing, groups]
  | valued key value isKey nonempty =>
    obtain rfl : ⟨key, some value⟩ = f := by simpa [ofBody?_valued isKey nonempty] using read
    have keyVisible : ∀ c ∈ key, isBlank c = false := fun c member => visible c (by simp [member])
    have valueVisible : ∀ c ∈ value, isBlank c = false := fun c member =>
      visible c (by simp [member])
    have stops : ∀ c ∈ ('=' :: (value ++ rest)).head?, isKeyChar c = false := by simp [isKeyChar]
    rw [List.append_assoc, List.cons_append, first?_body isKey keyVisible stops,
      first?_value atBreak nonempty valueVisible]
    simp [Match.followedBy, groups]

/-- A body that cannot be read is a key with an equals sign, and only the key is taken. -/
theorem first?_body_of_none {m : Match} (unread : ofBody? front = none)
    (isMatch : bodyPattern.first? (front ++ rest) = some m) :
    IsKey m.taken ∧ front = m.taken ++ ['='] := by
  induction front using bodyCases with
  | keyless front keyless => simp [first?_body_keyless keyless atBreak] at isMatch
  | bare key isKey => simp [ofBody?_bare isKey] at unread
  | valued key value isKey nonempty => simp [ofBody?_valued isKey nonempty] at unread
  | unfinished key isKey =>
    -- The value would have to start at a break, so the pattern gives up on it.
    have keyVisible : ∀ c ∈ key, isBlank c = false := fun c member => visible c (by simp [member])
    have stops : ∀ c ∈ ('=' :: rest).head?, isKeyChar c = false := by simp [isKeyChar]
    rw [List.append_assoc, List.cons_append, List.nil_append, first?_body isKey keyVisible stops,
      first?_value_unfinished atBreak] at isMatch
    have isTaken : key = m.taken := by
      simp only [Option.map_some, Option.some.injEq] at isMatch
      simp [← isMatch, Match.followedBy, Match.nothing]
    exact ⟨isTaken ▸ isKey, by rw [isTaken]⟩

end

/-- The part of the pattern behind the first dash. -/
def dashedPattern : Pattern := .sequence (.option (.char (· == '-'))) bodyPattern

theorem first?_dash (s : List Char) : flagPattern.first? ('-' :: s) =
    (dashedPattern.first? s).map (Match.followedBy ⟨['-'], [], s⟩) := by
  simp [flagPattern_eq, dashedPattern, Pattern.first?_sequence, Pattern.ways]

theorem first?_of_no_dash {s : List Char} (other : ∀ c ∈ s.head?, c ≠ '-') :
    flagPattern.first? s = none := by
  cases s with
  | nil => rfl
  | cons c s => simp [flagPattern_eq, Pattern.first?_sequence, Pattern.ways, other c rfl]

theorem first?_second_dash (s : List Char) : dashedPattern.first? ('-' :: s) =
    ((bodyPattern.first? s).map (Match.followedBy ⟨['-'], [], s⟩)).or
      (bodyPattern.first? ('-' :: s)) := by
  rw [dashedPattern, Pattern.first?_sequence]
  cases found : bodyPattern.first? s <;> simp [Pattern.ways, found]

theorem first?_no_second_dash {s : List Char} (other : ∀ c ∈ s.head?, c ≠ '-') :
    dashedPattern.first? s = bodyPattern.first? s := by
  rw [dashedPattern, Pattern.first?_sequence]
  cases s with
  | nil => simp [Pattern.ways]
  | cons c s => simp [Pattern.ways, other c rfl]

section
variable {w rest : List Char} (visible : ∀ c ∈ w, isBlank c = false) (atBreak : AtBreak rest)
include atBreak

theorem no_dash_of_append (other : ∀ s, w ≠ '-' :: s) : ∀ c ∈ (w ++ rest).head?, c ≠ '-' := by
  rintro c isHead rfl
  cases w with
  | cons c w =>
    obtain rfl : c = '-' := by simpa using isHead
    exact other w rfl
  | nil => exact absurd (atBreak '-' isHead) (by decide)

include visible

/-- At the start of a flag word the match is the whole word. -/
theorem first?_of_flagWord {f : FlagWord} (read : ofWord? w = some f) :
    flagPattern.first? (w ++ rest) = some ⟨w, f.groups, rest⟩ := by
  rw [ofWord?.eq_def] at read
  split at read
  · next body =>
    obtain ⟨-, dashVisible⟩ := List.forall_mem_cons.mp visible
    obtain ⟨-, bodyVisible⟩ := List.forall_mem_cons.mp dashVisible
    rw [List.cons_append, List.cons_append, first?_dash, first?_second_dash]
    cases behind : ofBody? body with
    | some g =>
      obtain rfl : g = f := by simpa [behind] using read
      rw [first?_body_of_some bodyVisible atBreak behind]
      rfl
    | none =>
      rw [behind, Option.none_or] at read
      -- With a key behind two dashes the body could not be read behind one dash either.
      have noMatch : bodyPattern.first? (body ++ rest) = none := by
        cases found : bodyPattern.first? (body ++ rest) with
        | none => rfl
        | some m =>
          obtain ⟨isKey, isBody⟩ := first?_body_of_none bodyVisible atBreak behind found
          have longer : IsKey ('-' :: m.taken) :=
            ⟨by simp, by simpa using isKey.equals_not_mem⟩
          rw [isBody, ← List.cons_append, ofBody?_unfinished longer] at read
          simp at read
      have matched := first?_body_of_some dashVisible atBreak read
      rw [List.cons_append] at matched
      rw [noMatch, matched]
      rfl
  · next body notTwo =>
    obtain ⟨-, bodyVisible⟩ := List.forall_mem_cons.mp visible
    rw [List.cons_append, first?_dash,
      first?_no_second_dash (no_dash_of_append atBreak notTwo),
      first?_body_of_some bodyVisible atBreak read]
    rfl
  · simp at read

/-- At the start of text that is no flag word a match leaves an equals sign in front of the next
blank. -/
theorem first?_of_not_flagWord {m : Match} (unread : ofWord? w = none)
    (isMatch : flagPattern.first? (w ++ rest) = some m) :
    m.taken ≠ [] ∧ w = m.taken ++ ['='] := by
  rw [ofWord?.eq_def] at unread
  split at unread
  · next body =>
    obtain ⟨-, dashVisible⟩ := List.forall_mem_cons.mp visible
    obtain ⟨-, bodyVisible⟩ := List.forall_mem_cons.mp dashVisible
    obtain ⟨unreadTwo, unreadOne⟩ := Option.or_eq_none_iff.mp unread
    rw [List.cons_append, List.cons_append, first?_dash, first?_second_dash] at isMatch
    cases found : bodyPattern.first? (body ++ rest) with
    | some n =>
      obtain ⟨-, isBody⟩ := first?_body_of_none bodyVisible atBreak unreadTwo found
      rw [found] at isMatch
      simp only [Option.map_some, Option.some_or, Option.some.injEq] at isMatch
      rw [← isMatch]
      exact ⟨by simp [Match.followedBy], by simpa [Match.followedBy] using isBody⟩
    | none =>
      rw [found, Option.map_none, Option.none_or] at isMatch
      obtain ⟨n, isMatch', rfl⟩ := Option.map_eq_some_iff.mp isMatch
      obtain ⟨-, isBody⟩ := first?_body_of_none dashVisible atBreak unreadOne isMatch'
      exact ⟨by simp [Match.followedBy], by simpa [Match.followedBy] using isBody⟩
  · next body notTwo =>
    obtain ⟨-, bodyVisible⟩ := List.forall_mem_cons.mp visible
    rw [List.cons_append, first?_dash,
      first?_no_second_dash (no_dash_of_append atBreak notTwo)] at isMatch
    obtain ⟨n, isMatch', rfl⟩ := Option.map_eq_some_iff.mp isMatch
    obtain ⟨-, isBody⟩ := first?_body_of_none bodyVisible atBreak unread isMatch'
    exact ⟨by simp [Match.followedBy], by simpa [Match.followedBy] using isBody⟩
  · next notTwo notOne =>
    rw [first?_of_no_dash (no_dash_of_append atBreak notOne)] at isMatch
    simp at isMatch

end

end IsoScene
