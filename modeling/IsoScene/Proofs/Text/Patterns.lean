import IsoScene.Text.Pattern

/-! # Matches of patterns

The match of a pattern is the first of its ways, so the ways after the first one only count where a
later part of the pattern can fail. A part that always matches settles for the first way of the part
before it (`first?_sequence_of_total`).

The occurrences in a text can be taken apart where no match goes across
(`occurrencesFrom_append`).
-/

namespace IsoScene.Text

@[simp] theorem Match.nothing_rest (s : List Char) : (nothing s).rest = s := rfl

@[simp] theorem Match.nothing_followedBy (s : List Char) : (nothing s).followedBy = id := rfl

namespace Pattern

theorem first?_option (p : Pattern) (s : List Char) :
    (option p).first? s = some ((p.first? s).getD (.nothing s)) := by
  rw [first?, ways, first?]
  cases p.ways s <;> rfl

theorem first?_group (number : Nat) (p : Pattern) (s : List Char) :
    (group number p).first? s = (p.first? s).map (Match.named number) := by
  rw [first?, ways, List.head?_map, first?]

theorem first?_sequence (p q : Pattern) (s : List Char) :
    (sequence p q).first? s =
      (p.ways s).findSome? fun m => (q.first? m.rest).map m.followedBy := by
  simp only [first?, ways, List.head?_flatMap, List.head?_map]

/-- A part that always matches never makes the part before it try again. -/
theorem first?_sequence_of_total {q : Pattern} (total : ∀ s, (q.first? s).isSome = true)
    (p : Pattern) (s : List Char) :
    (sequence p q).first? s =
      (p.first? s).bind fun m => (q.first? m.rest).map m.followedBy := by
  rw [first?_sequence, first?]
  cases p.ways s with
  | nil => rfl
  | cons m others =>
    obtain ⟨n, found⟩ := Option.isSome_iff_exists.mp (total m.rest)
    simp [found]

/-- A run takes all the characters up to the first that is not in the class. -/
theorem first?_run {isMember : Char → Bool} {front rest : List Char} (nonempty : front ≠ [])
    (members : ∀ c ∈ front, isMember c = true) (stops : ∀ c ∈ rest.head?, isMember c = false) :
    (run isMember).first? (front ++ rest) = some ⟨front, [], rest⟩ := by
  induction front with
  | nil => exact absurd rfl nonempty
  | cons c front ih =>
    obtain ⟨member, membersLater⟩ := List.forall_mem_cons.mp members
    rw [first?, ways, List.cons_append, runWays, if_pos member, List.head?_append, List.head?_map]
    cases front with
    | nil =>
      have ended : runWays isMember rest = [] := by
        cases rest with
        | nil => rfl
        | cons d rest => simp [runWays, stops d rfl]
      simp [ended]
    | cons d front =>
      have later := ih (by simp) membersLater
      rw [first?, ways, List.cons_append] at later
      simp [later, Match.followedBy]

theorem first?_run_eq_none {isMember : Char → Bool} {rest : List Char}
    (stops : ∀ c ∈ rest.head?, isMember c = false) : (run isMember).first? rest = none := by
  cases rest with
  | nil => rfl
  | cons c rest => simp [first?, ways, runWays, stops c rfl]

/-! ## Occurrences -/

variable {p : Pattern}

theorem occurrencesFrom_cons_of_none {c : Char} {rest : List Char}
    (noMatch : p.first? (c :: rest) = none) (start : Nat) :
    p.occurrencesFrom start 0 (c :: rest) = p.occurrencesFrom (start + 1) 0 rest := by
  simp [occurrencesFrom, noMatch]

theorem occurrencesFrom_skip (start : Nat) (front rest : List Char) :
    p.occurrencesFrom start front.length (front ++ rest) =
      p.occurrencesFrom (start + front.length) 0 rest := by
  induction front generalizing start with
  | nil => rfl
  | cons c front ih =>
    rw [List.length_cons, List.cons_append, occurrencesFrom, ih, Nat.add_assoc,
      Nat.add_comm 1 front.length]

theorem occurrencesFrom_of_some {taken rest : List Char} {groups : List (Nat × List Char)}
    (nonempty : taken ≠ []) (isMatch : p.first? (taken ++ rest) = some ⟨taken, groups, rest⟩)
    (start : Nat) :
    p.occurrencesFrom start 0 (taken ++ rest) =
      ⟨start, taken, groups, rest⟩ :: p.occurrencesFrom (start + taken.length) 0 rest := by
  obtain ⟨c, front, rfl⟩ := List.exists_cons_of_ne_nil nonempty
  have position : start + 1 + front.length = start + (c :: front).length := by
    rw [List.length_cons]
    omega
  rw [List.cons_append] at isMatch ⊢
  rw [occurrencesFrom, isMatch]
  simp only [List.isEmpty_cons, Bool.false_eq_true, if_false, List.length_cons,
    Nat.add_sub_cancel, occurrencesFrom_skip]
  rw [position, List.length_cons]

/-- If no match goes across the end of `front`, the occurrences are those that start in `front` and
those behind it. -/
theorem occurrencesFrom_append {front rest : List Char}
    (stays : ∀ u v m, front = u ++ v → p.first? (v ++ rest) = some m →
      m.taken.length ≤ v.length) (start : Nat) {skipped : Nat} (bound : skipped ≤ front.length) :
    ∃ within, p.occurrencesFrom start skipped (front ++ rest) =
        within ++ p.occurrencesFrom (start + front.length) 0 rest ∧
      ∀ o ∈ within, ∃ u v, front = u ++ v ∧ v ≠ [] ∧ o.start = start + u.length ∧
        p.first? (v ++ rest) = some o.found := by
  induction front generalizing start skipped with
  | nil =>
    obtain rfl : skipped = 0 := by simpa using bound
    exact ⟨[], rfl, by simp⟩
  | cons c front ih =>
    have staysLater : ∀ u v m, front = u ++ v → p.first? (v ++ rest) = some m →
        m.taken.length ≤ v.length := fun u v m split => stays (c :: u) v m (by simp [split])
    -- What is found behind the first character is found in the whole.
    have later : ∀ k ≤ front.length, ∃ within,
        p.occurrencesFrom (start + 1) k (front ++ rest) =
          within ++ p.occurrencesFrom (start + (c :: front).length) 0 rest ∧
        ∀ o ∈ within, ∃ u v, c :: front = u ++ v ∧ v ≠ [] ∧ o.start = start + u.length ∧
          p.first? (v ++ rest) = some o.found := by
      intro k enough
      obtain ⟨within, found, inside⟩ := ih staysLater (start + 1) enough
      refine ⟨within, ?_, ?_⟩
      · rw [found, List.length_cons, Nat.add_assoc, Nat.add_comm 1]
      · intro o member
        obtain ⟨u, v, split, nonempty, position, isMatch⟩ := inside o member
        exact ⟨c :: u, v, by simp [split], nonempty, by simp [position]; omega, isMatch⟩
    cases skipped with
    | succ skipped => exact later skipped (by simpa using bound)
    | zero =>
      rw [List.cons_append, occurrencesFrom]
      cases found : p.first? (c :: (front ++ rest)) with
      | none => exact later 0 (Nat.zero_le _)
      | some m =>
        by_cases isEmpty : m.taken.isEmpty = true
        · simpa [isEmpty] using later 0 (Nat.zero_le _)
        · have short := stays [] (c :: front) m rfl found
          have enough : m.taken.length - 1 ≤ front.length := by
            rw [List.length_cons] at short
            omega
          obtain ⟨within, others, inside⟩ := later _ enough
          refine ⟨⟨start, m⟩ :: within, by simp [isEmpty, others], ?_⟩
          intro o member
          rcases List.mem_cons.mp member with rfl | among
          · exact ⟨[], c :: front, rfl, by simp, rfl, found⟩
          · exact inside o among

end Pattern

end IsoScene.Text
