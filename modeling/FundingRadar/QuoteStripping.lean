import FundingRadar.SymbolKeys

/-!
Whether cutting off the quote currency undoes its appending. The suffixes of Aster
overlap: what ends in `BUSD` also ends in `USD`, and the longer one comes first. The
Extended and the Pacifica collector delete `-USD` wherever it stands in the symbol.
-/
namespace FundingRadar

/-- A symbol made of a base and a quote currency is turned back into the base. -/
def Inverts (stripQuote : String → String) (base quote : String) : Prop := stripQuote (base ++ quote) = base
/-- `pattern in s`. -/
def Occurs (pattern s : String) : Prop := pattern.toList <:+: s.toList

instance (stripQuote : String → String) (base quote : String) : Decidable (Inverts stripQuote base quote) :=
  inferInstanceAs (Decidable (_ = _))
instance (pattern s : String) : Decidable (Occurs pattern s) := inferInstanceAs (Decidable (_ <:+: _))

/-! ### Deleting every occurrence -/

theorem withoutUsd_length_le (l : List Char) : (withoutUsd l).length ≤ l.length := by
  fun_induction withoutUsd l with
  | case1 rest ih =>
    simp only [List.length_cons]
    omega
  | case2 c rest _ ih =>
    simp only [List.length_cons]
    omega
  | case3 => exact le_refl _

/-- A list that starts with the pattern is the first case of the deletion. -/
theorem not_starts_of_kept {c : Char} {rest : List Char} (kept : ∀ tail, c = '-' → rest = 'U' :: 'S' :: 'D' :: tail → False) :
    ¬ ['-','U','S','D'] <+: c :: rest := by
  rintro ⟨tail,starts⟩
  simp only [List.cons_append,List.nil_append,List.cons.injEq] at starts
  exact kept tail starts.1.symm starts.2.symm

/-- What has no occurrence stays, and every deletion shortens. -/
theorem withoutUsd_eq_self_iff (l : List Char) : withoutUsd l = l ↔ ¬ ['-','U','S','D'] <:+: l := by
  fun_induction withoutUsd l with
  | case1 rest ih =>
    constructor
    · intro same
      have lengths := congrArg List.length same
      have shorter := withoutUsd_length_le rest
      simp only [List.length_cons] at lengths
      omega
    · intro absent
      exact absurd (List.IsPrefix.isInfix ⟨rest,rfl⟩) absent
  | case2 c rest kept ih =>
    rw [List.cons.injEq,ih,List.infix_cons_iff]
    have starts := not_starts_of_kept kept
    simp only [true_and,starts,false_or]
  | case3 => simp

/-- The pattern does not overlap itself, so an occurrence at the end is deleted on its own. -/
theorem withoutUsd_append (l : List Char) : withoutUsd (l ++ ['-','U','S','D']) = withoutUsd l := by
  fun_induction withoutUsd l with
  | case1 rest ih => exact ih
  | case2 c rest kept ih =>
    have apart : ∀ tail, c = '-' → rest ++ ['-','U','S','D'] = 'U' :: 'S' :: 'D' :: tail → False := by
      intro tail dash starts
      match rest with
      | [] => simp at starts
      | [a] => simp at starts
      | [a,b] => simp at starts
      | a :: b :: d :: rest =>
        simp only [List.cons_append,List.cons.injEq] at starts
        obtain ⟨rfl,rfl,rfl,-⟩ := starts
        exact kept rest dash rfl
    rw [List.cons_append,withoutUsd,ih]
    exact apart
  | case3 => rfl

theorem inverts_withoutUsd_iff (base : String) :
    Inverts (fun symbol => String.ofList (withoutUsd symbol.toList)) base "-USD" ↔ ¬ Occurs "-USD" base := by
  have pattern : "-USD".toList = ['-','U','S','D'] := rfl
  have deleted : withoutUsd (base ++ "-USD").toList = withoutUsd base.toList := by
    rw [String.toList_append,pattern,withoutUsd_append]
  unfold Inverts Occurs
  dsimp only
  rw [deleted,pattern,← withoutUsd_eq_self_iff,← String.toList_inj,String.toList_ofList]

namespace AsterCollector

/-- The symbol quotes its base unless a longer quote currency shows at its end. -/
theorem inverts_iff (base : String) {quote : String} (listed : quote ∈ quoteSuffixes) :
    Inverts stripQuote base quote ↔ ¬ (quote = "USD" ∧ EndsWith base "B") := by
  unfold Inverts
  rw [stripQuote_eq_iff]
  simp only [quoteSuffixes,List.mem_cons,List.not_mem_nil,or_false] at listed
  have other : ∀ suffix, suffix ≠ "USD" → (¬ (suffix = "USD" ∧ EndsWith base "B") ↔ True) := by
    intro suffix differ
    exact iff_true_intro (fun bad => differ bad.1)
  rcases listed with rfl | rfl | rfl | rfl
  · rw [other _ (by decide),iff_true]
    exact .inl rfl
  · rw [other _ (by decide),iff_true]
    exact .inr (.inl rfl)
  · rw [other _ (by decide),iff_true]
    exact .inr (.inr (.inl rfl))
  · constructor
    · rintro quotes ⟨-,endsB⟩
      rcases quotes with same | same | same | ⟨-,plain⟩ | ⟨same,-⟩
      · exact absurd ((String.append_right_inj base).mp same) (by decide)
      · exact absurd ((String.append_right_inj base).mp same) (by decide)
      · exact absurd ((String.append_right_inj base).mp same) (by decide)
      · exact plain endsB
      · have empty : "USD" = "" := (String.append_right_inj base).mp (same.trans String.append_empty.symm)
        exact absurd empty (by decide)
    · intro plain
      exact .inr (.inr (.inr (.inl ⟨rfl,fun endsB => plain ⟨rfl,endsB⟩⟩)))

end AsterCollector

/-- Which symbols every collector turns back into the base that they were made of. -/
theorem stripQuote_inverts_iff (base : String) :
    (∀ quote ∈ AsterCollector.quoteSuffixes,
      (Inverts AsterCollector.stripQuote base quote ↔ ¬ (quote = "USD" ∧ AsterCollector.EndsWith base "B"))) ∧
    (Inverts ExtendedCollector.stripQuote base "-USD" ↔ ¬ Occurs "-USD" base) ∧
    (Inverts PacificaCollector.stripQuote base "-USD" ↔ ¬ Occurs "-USD" base) :=
  ⟨fun _ listed => AsterCollector.inverts_iff base listed,inverts_withoutUsd_iff base,inverts_withoutUsd_iff base⟩

/-- One symbol is made of two bases. -/
theorem arb_usd_not_inverted :
    "ARB" ++ "USD" = "AR" ++ "BUSD" ∧ AsterCollector.stripQuote ("ARB" ++ "USD") = "AR" ∧
    ¬ Inverts AsterCollector.stripQuote "ARB" "USD" ∧
    ¬ Inverts ExtendedCollector.stripQuote "A-USD" "-USD" ∧ ¬ Inverts PacificaCollector.stripQuote "A-USD" "-USD" := by
  decide +kernel

theorem arb_busd_inverted :
    Inverts AsterCollector.stripQuote "ARB" "BUSD" ∧ Inverts ExtendedCollector.stripQuote "ARB" "-USD" := by
  have parts := stripQuote_inverts_iff "ARB"
  exact ⟨(parts.1 "BUSD" (by decide)).mpr (fun bad => absurd bad.1 (by decide)),parts.2.1.mpr (by decide)⟩

end FundingRadar
