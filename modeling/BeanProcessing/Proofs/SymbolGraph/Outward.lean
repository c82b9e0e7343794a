import BeanProcessing.Proofs.Resolver.DeclaringClass

/-!
# What is met on the way outward

The way outward from a symbol is the sequence of the symbol it stands in, of the one that this
stands in, and so on. In a graph with cycles it has no end. What is met first on it is told here by
the sequence alone: the first class, unless the way comes back to a symbol before it does, or the
end. A walk of bounded length finds it, since a way that is longer than the graph has declarations
has come back.
-/

namespace BeanProcessing.SymbolGraph

variable {g : SymbolGraph} {s t u : Symbol} {n : Nat}

/-! ## The sequence -/

/-- The symbol that is reached from a symbol after some steps outward. -/
def ancestor? (g : SymbolGraph) (s : Symbol) : (steps : Nat) → Option Symbol
  | 0 => some s
  | steps + 1 => (g.ancestor? s steps).bind g.enclosing?

theorem ancestor?_add (g : SymbolGraph) (s : Symbol) (m n : Nat) :
    g.ancestor? s (m + n) = (g.ancestor? s m).bind (g.ancestor? · n) := by
  induction n with
  | zero => exact (Option.bind_fun_some _).symm
  | succ n ih =>
    rw [Nat.add_succ, ancestor?, ih, Option.bind_assoc]
    rfl

theorem ancestor?_of_step {outer : Symbol} (h : g.enclosing? s = some outer) (n : Nat) :
    g.ancestor? s (n + 1) = g.ancestor? outer n := by
  rw [Nat.add_comm, ancestor?_add]
  show (g.enclosing? s).bind _ = _
  rw [h, Option.bind_some]

/-- The way does not go on behind its end. -/
theorem ancestor?_eq_none_of_le {m : Nat} (h : g.ancestor? s m = none) (hmn : m ≤ n) :
    g.ancestor? s n = none := by
  obtain ⟨k, rfl⟩ := Nat.exists_eq_add_of_le hmn
  rw [ancestor?_add, h, Option.bind_none]

/-- The symbols around a symbol are those of the sequence, as many as there are or are asked for. -/
theorem getElem?_enclosingChain (g : SymbolGraph) (s : Symbol) (limit i : Nat) :
    (g.enclosingChain s limit)[i]? = if i < limit then g.ancestor? s (i + 1) else none := by
  induction limit generalizing s i with
  | zero => rfl
  | succ limit ih =>
    rw [enclosingChain]
    cases h : g.enclosing? s with
    | none =>
      have hend : g.ancestor? s 1 = none := h
      rw [ancestor?_eq_none_of_le hend (by omega), ite_self]
      rfl
    | some outer =>
      rw [ancestor?_of_step h]
      cases i with
      | zero => rfl
      | succ i =>
        rw [List.getElem?_cons_succ, ih]
        simp only [Nat.add_lt_add_iff_right]

/-- A way that comes to a symbol twice never ends. -/
theorem ancestor?_ne_none_of_repeat {i j : Nat} (hij : i < j) (hi : g.ancestor? s i = some t)
    (hj : g.ancestor? s j = some t) (n : Nat) : g.ancestor? s n ≠ none := by
  obtain ⟨k, rfl⟩ := Nat.exists_eq_add_of_lt hij
  -- each round starts from the same symbol as the one before
  have hround : ∀ rounds, g.ancestor? s (i + rounds * (k + 1)) = some t := by
    intro rounds
    induction rounds with
    | zero => simpa using hi
    | succ rounds ih =>
      have hsteps : i + (rounds + 1) * (k + 1) = i + rounds * (k + 1) + (k + 1) := by
        rw [Nat.add_one_mul, Nat.add_assoc]
      rw [hsteps, ancestor?_add, ih, ← hi, ← ancestor?_add]
      exact hj.trans hi.symm
  intro hend
  have hle : n ≤ i + n * (k + 1) :=
    Nat.le_add_left_of_le (Nat.le_mul_of_pos_right n (Nat.succ_pos k))
  have hnone := ancestor?_eq_none_of_le hend hle
  rw [hround n] at hnone
  cases hnone

/-! ## Where the way is over -/

/-- Whether the way is over after some steps: it has ended, or it has come back to a symbol that was
met before. -/
def OverAt (g : SymbolGraph) (s : Symbol) (n : Nat) : Prop :=
  g.ancestor? s n = none ∨ ∃ k < n, g.ancestor? s k = g.ancestor? s n

/-- A way that is not over has met as many symbols as it has taken steps, and all of them are
declared. -/
theorem exists_overAt (g : SymbolGraph) (s : Symbol) : ∃ n ≤ g.size + 1, g.OverAt s n := by
  by_contra hnever
  have hgoes : ∀ n ≤ g.size + 1, ∃ t, g.ancestor? s n = some t := fun n hn =>
    Option.ne_none_iff_exists'.1 fun hend => hnever ⟨n, hn, Or.inl hend⟩
  have hnew : ∀ i j, i < j → j ≤ g.size + 1 → g.ancestor? s i ≠ g.ancestor? s j :=
    fun i j hij hj heq => hnever ⟨j, hj, Or.inr ⟨i, hij, heq⟩⟩
  let way := (List.range (g.size + 1)).map fun i => (g.ancestor? s i).getD s
  have hnodup : way.Nodup := by
    refine List.Nodup.map_on (fun i hi j hj heq => ?_) List.nodup_range
    rw [List.mem_range] at hi hj
    obtain ⟨t, ht⟩ := hgoes i (by omega)
    obtain ⟨u, hu⟩ := hgoes j (by omega)
    rw [ht, hu, Option.getD_some, Option.getD_some] at heq
    have hsame : g.ancestor? s i = g.ancestor? s j := by rw [ht, hu, heq]
    rcases Nat.lt_trichotomy i j with hlt | rfl | hlt
    · exact absurd hsame (hnew i j hlt (by omega))
    · rfl
    · exact absurd hsame.symm (hnew j i hlt (by omega))
  have hsubset : way ⊆ g.declaredSymbols := by
    intro t ht
    obtain ⟨i, hi, rfl⟩ := List.mem_map.1 ht
    rw [List.mem_range] at hi
    obtain ⟨t, ht⟩ := hgoes i (by omega)
    obtain ⟨outer, houter⟩ := hgoes (i + 1) (by omega)
    rw [ancestor?, ht, Option.bind_some] at houter
    rw [ht, Option.getD_some]
    exact mem_declaredSymbols houter
  have hlength := (hnodup.subperm hsubset).length_le
  rw [List.length_map, List.length_range, length_declaredSymbols] at hlength
  omega

/-- Whatever the way comes to, it has come to before it is over. -/
theorem OverAt.exists_lt (h : g.OverAt s n) {j : Nat} (ht : g.ancestor? s j = some t) :
    ∃ k < n, g.ancestor? s k = some t := by
  induction j using Nat.strongRecOn with
  | ind j ih =>
    rcases Nat.lt_or_ge j n with hlt | hle
    · exact ⟨j, hlt, ht⟩
    obtain ⟨i, rfl⟩ := Nat.exists_eq_add_of_le hle
    rcases h with hend | ⟨k, hk, heq⟩
    · rw [ancestor?_eq_none_of_le hend hle] at ht
      cases ht
    -- from the two places on which it is the same symbol the way goes on alike
    · refine ih (k + i) (by omega) ?_
      rw [ancestor?_add, heq, ← ancestor?_add]
      exact ht

/-! ## What the sequence comes to -/

/-- Whether no class is met in less than a number of steps. -/
def NoClassBefore (g : SymbolGraph) (s : Symbol) (n : Nat) : Prop :=
  ∀ k t, 0 < k → k < n → g.ancestor? s k = some t → t.isClass = false

/-- Whether a symbol is met for the second time before any class is met, or the symbol met twice is
that class. The start counts as met. -/
def ComesBackTo (g : SymbolGraph) (s t : Symbol) : Prop :=
  ∃ i j, i < j ∧ g.ancestor? s i = some t ∧ g.ancestor? s j = some t ∧ g.NoClassBefore s j

/-- Whether the way goes on and on without a class. -/
def Endless (g : SymbolGraph) (s : Symbol) : Prop :=
  ∀ n, ∃ t, g.ancestor? s (n + 1) = some t ∧ t.isClass = false

/-- Whether the way ends without a class. -/
def EndsOutside (g : SymbolGraph) (s : Symbol) : Prop :=
  ∃ n, g.ancestor? s n = none ∧ g.NoClassBefore s n

/-- Whether a symbol is the first class on the way. -/
def FirstClass (g : SymbolGraph) (s owner : Symbol) : Prop :=
  ∃ n, 0 < n ∧ g.ancestor? s n = some owner ∧ owner.isClass = true ∧ g.NoClassBefore s n

theorem EndsOutside.not_comesBackTo (h : g.EndsOutside s) : ¬ g.ComesBackTo s t := by
  rintro ⟨i, j, hij, hi, hj, -⟩
  obtain ⟨n, hend, -⟩ := h
  exact ancestor?_ne_none_of_repeat hij hi hj n hend

theorem EndsOutside.not_endless (h : g.EndsOutside s) : ¬ g.Endless s := by
  intro hendless
  obtain ⟨n, hend, -⟩ := h
  obtain ⟨t, ht, -⟩ := hendless n
  rw [ancestor?_eq_none_of_le hend (Nat.le_succ n)] at ht
  cases ht

theorem EndsOutside.not_firstClass (h : g.EndsOutside s) : ¬ g.FirstClass s t := by
  rintro ⟨k, hk, ht, hclass, -⟩
  obtain ⟨n, hend, hnone⟩ := h
  rcases Nat.lt_or_ge k n with hkn | hnk
  · rw [hnone k t hk hkn ht] at hclass
    cases hclass
  · rw [ancestor?_eq_none_of_le hend hnk] at ht
    cases ht

theorem FirstClass.not_endless (h : g.FirstClass s t) : ¬ g.Endless s := by
  intro hendless
  obtain ⟨n, hn, ht, hclass, -⟩ := h
  obtain ⟨k, rfl⟩ : ∃ k, n = k + 1 := ⟨n - 1, by omega⟩
  obtain ⟨u, hu, hnot⟩ := hendless k
  obtain rfl := Option.some.inj (ht.symm.trans hu)
  rw [hnot] at hclass
  cases hclass

theorem FirstClass.unique (h : g.FirstClass s t) (h' : g.FirstClass s u) : t = u := by
  obtain ⟨n, hn, ht, hclass, hnone⟩ := h
  obtain ⟨n', hn', hu, hclass', hnone'⟩ := h'
  rcases Nat.lt_trichotomy n n' with hlt | rfl | hlt
  · rw [hnone' n t hn hlt ht] at hclass
    cases hclass
  · exact Option.some.inj (ht.symm.trans hu)
  · rw [hnone n' u hn' hlt hu] at hclass'
    cases hclass'

/-! ## The walk -/

/-- Where a walk stands after some steps, with the symbols that it has met: it is not over, so none
of them was met twice, and none but the start is a class. -/
structure Walked (g : SymbolGraph) (s : Symbol) (n : Nat) (t : Symbol) (met : List Symbol) :
    Prop where
  here : g.ancestor? s n = some t
  mem_iff : ∀ u, u ∈ met ↔ ∃ k ≤ n, g.ancestor? s k = some u
  nodup : met.Nodup
  length_eq : met.length = n + 1
  noClass : g.NoClassBefore s (n + 1)
  distinct : ∀ i j u, i < j → j ≤ n → g.ancestor? s i = some u → g.ancestor? s j ≠ some u

variable {met : List Symbol}

theorem walked_start (g : SymbolGraph) (s : Symbol) : Walked g s 0 s [s] where
  here := rfl
  mem_iff u := by simp [ancestor?, eq_comm]
  nodup := List.nodup_singleton s
  length_eq := rfl
  noClass k t hk hlt := by omega
  distinct i j u hij hj := by omega

theorem NoClassBefore.succ (h : g.NoClassBefore s n) (hn : g.ancestor? s n = some t)
    (ht : t.isClass = false) : g.NoClassBefore s (n + 1) := by
  intro k u hk hlt hu
  rcases Nat.lt_succ_iff_lt_or_eq.1 hlt with hlt | rfl
  · exact h k u hk hlt hu
  · obtain rfl := Option.some.inj (hn.symm.trans hu)
    exact ht

theorem Walked.next {outer : Symbol} (h : Walked g s n t met)
    (houter : g.enclosing? t = some outer) : g.ancestor? s (n + 1) = some outer := by
  rw [ancestor?, h.here, Option.bind_some, houter]

theorem Walked.step {outer : Symbol} (h : Walked g s n t met)
    (houter : g.enclosing? t = some outer) (hnew : outer ∉ met) (hclass : outer.isClass = false) :
    Walked g s (n + 1) outer (outer :: met) where
  here := h.next houter
  mem_iff u := by
    rw [List.mem_cons, h.mem_iff]
    constructor
    · rintro (rfl | ⟨k, hk, hu⟩)
      · exact ⟨n + 1, Nat.le_refl _, h.next houter⟩
      · exact ⟨k, Nat.le_succ_of_le hk, hu⟩
    · rintro ⟨k, hk, hu⟩
      rcases Nat.le_succ_iff.1 hk with hk | rfl
      · exact Or.inr ⟨k, hk, hu⟩
      · exact Or.inl (Option.some.inj (hu.symm.trans (h.next houter)))
  nodup := List.nodup_cons.2 ⟨hnew, h.nodup⟩
  length_eq := by rw [List.length_cons, h.length_eq]
  noClass := h.noClass.succ (h.next houter) hclass
  distinct i j u hij hj hi hu := by
    rcases Nat.le_succ_iff.1 hj with hj | rfl
    · exact h.distinct i j u hij hj hi hu
    · obtain rfl := Option.some.inj (hu.symm.trans (h.next houter))
      exact hnew ((h.mem_iff u).2 ⟨i, Nat.le_of_lt_succ hij, hi⟩)

/-- All symbols that were met are declared, but perhaps the last. So a walk is not longer than the
graph has declarations. -/
theorem Walked.le_size (h : Walked g s n t met) : n ≤ g.size := by
  have hsubset : met ⊆ t :: g.declaredSymbols := by
    intro u hu
    obtain ⟨k, hk, hku⟩ := (h.mem_iff u).1 hu
    rcases Nat.eq_or_lt_of_le hk with rfl | hlt
    · exact List.mem_cons.2 (Or.inl (Option.some.inj (hku.symm.trans h.here)))
    · refine List.mem_cons_of_mem t ?_
      cases hnext : g.enclosing? u with
      | some outer => exact mem_declaredSymbols hnext
      | none =>
        have hend : g.ancestor? s (k + 1) = none := by rw [ancestor?, hku, Option.bind_some, hnext]
        have hhere := h.here
        rw [ancestor?_eq_none_of_le hend hlt] at hhere
        cases hhere
  have hlength := (h.nodup.subperm hsubset).length_le
  rw [h.length_eq, List.length_cons, length_declaredSymbols] at hlength
  omega

/-- A walk that meets a new class has not come back to a symbol before. -/
theorem Walked.not_comesBackTo {outer : Symbol} (h : Walked g s n t met)
    (houter : g.enclosing? t = some outer) (hnew : outer ∉ met) (hclass : outer.isClass = true)
    (u : Symbol) : ¬ g.ComesBackTo s u := by
  rintro ⟨i, j, hij, hi, hj, hnone⟩
  rcases Nat.lt_trichotomy j (n + 1) with hlt | rfl | hlt
  · exact h.distinct i j u hij (Nat.le_of_lt_succ hlt) hi hj
  · obtain rfl := Option.some.inj (hj.symm.trans (h.next houter))
    exact hnew ((h.mem_iff u).2 ⟨i, Nat.le_of_lt_succ hij, hi⟩)
  · rw [hnone (n + 1) outer (Nat.succ_pos n) hlt (h.next houter)] at hclass
    cases hclass

/-- What a walk meets first is what the sequence comes to. -/
theorem Walked.encounterAlong_spec {limit : Nat} (h : Walked g s n t met)
    (hlimit : n + limit = g.size + 1) :
    match encounterAlong met (g.enclosingChain t limit) with
    | .outside => g.EndsOutside s
    | .repetition u => g.ComesBackTo s u
    | .nearestClass owner => g.FirstClass s owner ∧ ∀ u, ¬ g.ComesBackTo s u := by
  induction limit generalizing n t met with
  | zero =>
    -- there are not so many declarations
    have hle := h.le_size
    omega
  | succ limit ih =>
    rw [enclosingChain]
    cases houter : g.enclosing? t with
    | none =>
      refine ⟨n + 1, ?_, h.noClass⟩
      rw [ancestor?, h.here, Option.bind_some, houter]
    | some outer =>
      dsimp only
      rw [encounterAlong]
      by_cases hmet : outer ∈ met
      · rw [if_pos hmet]
        obtain ⟨k, hk, hku⟩ := (h.mem_iff outer).1 hmet
        exact ⟨k, n + 1, Nat.lt_succ_of_le hk, hku, h.next houter, h.noClass⟩
      rw [if_neg hmet]
      by_cases hclass : outer.isClass = true
      · rw [if_pos hclass]
        exact ⟨⟨n + 1, Nat.succ_pos n, h.next houter, hclass, h.noClass⟩,
          h.not_comesBackTo houter hmet hclass⟩
      · rw [if_neg hclass]
        exact ih (h.step houter hmet (Bool.eq_false_iff.2 hclass)) (by omega)

/-! ## What is met first -/

theorem encounter_spec (g : SymbolGraph) (s : Symbol) :
    match g.encounter s with
    | .outside => g.EndsOutside s
    | .repetition u => g.ComesBackTo s u
    | .nearestClass owner => g.FirstClass s owner ∧ ∀ u, ¬ g.ComesBackTo s u :=
  (walked_start g s).encounterAlong_spec (Nat.zero_add _)

/-- Every way comes to one of these. -/
theorem encounter_cases (g : SymbolGraph) (s : Symbol) :
    ((∃ u, g.ComesBackTo s u) ∨ g.Endless s) ∨ g.EndsOutside s ∨ ∃ owner, g.FirstClass s owner := by
  have hspec := encounter_spec g s
  cases h : g.encounter s with
  | outside =>
    rw [h] at hspec
    exact Or.inr (Or.inl hspec)
  | repetition u =>
    rw [h] at hspec
    exact Or.inl (Or.inl ⟨u, hspec⟩)
  | nearestClass owner =>
    rw [h] at hspec
    exact Or.inr (Or.inr ⟨owner, hspec.1⟩)

theorem encounter_eq_outside_iff : g.encounter s = .outside ↔ g.EndsOutside s := by
  have hspec := encounter_spec g s
  cases h : g.encounter s with
  | outside =>
    rw [h] at hspec
    exact iff_of_true rfl hspec
  | repetition u =>
    rw [h] at hspec
    exact iff_of_false nofun fun hend => hend.not_comesBackTo hspec
  | nearestClass owner =>
    rw [h] at hspec
    exact iff_of_false nofun fun hend => hend.not_firstClass hspec.1

/-- A walk meets a symbol for the second time exactly if the way comes back before a class is met,
and that is so if it is without end and without a class. -/
theorem encounter_eq_repetition_iff :
    (∃ u, g.encounter s = .repetition u) ↔ (∃ u, g.ComesBackTo s u) ∨ g.Endless s := by
  have hspec := encounter_spec g s
  cases h : g.encounter s with
  | outside =>
    rw [h] at hspec
    refine iff_of_false nofun ?_
    rintro (⟨u, hu⟩ | hendless)
    · exact hspec.not_comesBackTo hu
    · exact hspec.not_endless hendless
  | repetition u =>
    rw [h] at hspec
    exact iff_of_true ⟨u, rfl⟩ (Or.inl ⟨u, hspec⟩)
  | nearestClass owner =>
    rw [h] at hspec
    refine iff_of_false nofun ?_
    rintro (⟨u, hu⟩ | hendless)
    · exact hspec.2 u hu
    · exact hspec.1.not_endless hendless

theorem encounter_eq_nearestClass_iff {owner : Symbol} :
    g.encounter s = .nearestClass owner ↔
      g.FirstClass s owner ∧ ¬ ((∃ u, g.ComesBackTo s u) ∨ g.Endless s) := by
  have hspec := encounter_spec g s
  cases h : g.encounter s with
  | outside =>
    rw [h] at hspec
    exact iff_of_false nofun fun hfirst => hspec.not_firstClass hfirst.1
  | repetition u =>
    rw [h] at hspec
    exact iff_of_false nofun fun hfirst => hfirst.2 (Or.inl ⟨u, hspec⟩)
  | nearestClass owner' =>
    rw [h] at hspec
    refine ⟨fun heq => ?_, fun hfirst => ?_⟩
    · cases heq
      refine ⟨hspec.1, ?_⟩
      rintro (⟨u, hu⟩ | hendless)
      · exact hspec.2 u hu
      · exact hspec.1.not_endless hendless
    · rw [hspec.1.unique hfirst.1]

end BeanProcessing.SymbolGraph
