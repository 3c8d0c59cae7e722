import FundingRadar.AsterFreshness
import FundingRadar.Normalizer
import FundingRadar.TokenKeys

/-!
What the records of one Aster build are filed under. Every store downstream is keyed by
the exchange and the token, and the token is the symbol without its quote currency, so
symbols that quote one asset in different currencies share a key and the later record
replaces the earlier one (`uniqueKeys_iff`).
-/
namespace FundingRadar
namespace AsterCollector

/-! ### Symbols that share a token -/

def EndsWith (symbol suffix : String) : Prop := ∃ base, symbol = base ++ suffix

/-- `symbol` is `base` with one of the quote currencies that are cut off, or without any.
    What ends in `BUSD` is quoted in that. -/
def Quotes (base symbol : String) : Prop :=
  symbol = base ++ "USDT" ∨ symbol = base ++ "BUSD" ∨ symbol = base ++ "USDC" ∨
    (symbol = base ++ "USD" ∧ ¬ EndsWith base "B") ∨ (symbol = base ∧ ∀ suffix ∈ quoteSuffixes, ¬ EndsWith symbol suffix)
theorem endsWith_iff (symbol suffix : String) : suffix.toList.isSuffixOf symbol.toList = true ↔ EndsWith symbol suffix := by
  rw [List.isSuffixOf_iff_suffix]
  constructor
  · rintro ⟨base,split⟩
    refine ⟨String.ofList base,?_⟩
    rw [← String.toList_inj,String.toList_append,String.toList_ofList,split]
  · rintro ⟨base,rfl⟩
    exact ⟨base.toList,String.toList_append.symm⟩

theorem cut_append (base suffix : String) :
    String.ofList ((base ++ suffix).toList.take ((base ++ suffix).length - suffix.length)) = base := by
  rw [String.length_append,Nat.add_sub_cancel,String.toList_append,← String.length_toList,List.take_left,String.ofList_toList]

/-- Two endings of a symbol have the same last character. -/
theorem endsWith_last {base suffix other : String} {a b : Char} (ends : EndsWith (base ++ suffix) other)
    (lastA : suffix.toList.getLast? = some a) (lastB : other.toList.getLast? = some b) : a = b := by
  obtain ⟨p,same⟩ := ends
  have lists := congrArg (fun s => s.toList.getLast?) same
  simp only [String.toList_append,List.getLast?_append,lastA,lastB] at lists
  exact Option.some.inj lists
theorem endsWith_busd {base : String} (ends : EndsWith (base ++ "USD") "BUSD") : EndsWith base "B" := by
  obtain ⟨p,same⟩ := ends
  refine ⟨p,?_⟩
  have split : p ++ "BUSD" = (p ++ "B") ++ "USD" := by rw [String.append_assoc]; rfl
  rw [split] at same
  exact (String.append_left_inj _).mp same

/-- The suffix that is cut off is the first of the list that fits. -/
theorem stripQuote_of_fits {base suffix : String} (before after : List String) (split : quoteSuffixes = before ++ suffix :: after)
    (others : ∀ other ∈ before, ¬ EndsWith (base ++ suffix) other) : stripQuote (base ++ suffix) = base := by
  have found : quoteSuffixes.find? (fun s => s.toList.isSuffixOf (base ++ suffix).toList) = some suffix := by
    rw [List.find?_eq_some_iff_append]
    refine ⟨(endsWith_iff _ _).mpr ⟨base,rfl⟩,before,after,split,?_⟩
    intro other member
    rw [Bool.not_eq_true',← Bool.not_eq_true,endsWith_iff]
    exact others other member
  rw [stripQuote,found]
  exact cut_append base suffix

/-- The token of a symbol is the asset that it quotes. -/
theorem stripQuote_eq_iff (base symbol : String) : stripQuote symbol = base ↔ Quotes base symbol := by
  constructor
  · rintro rfl
    unfold stripQuote
    cases found : quoteSuffixes.find? (fun suffix => suffix.toList.isSuffixOf symbol.toList) with
    | none =>
      refine .inr (.inr (.inr (.inr ⟨rfl,?_⟩)))
      intro suffix member ends
      exact List.find?_eq_none.mp found suffix member ((endsWith_iff _ _).mpr ends)
    | some suffix =>
      obtain ⟨fits,before,after,split,others⟩ := List.find?_eq_some_iff_append.mp found
      obtain ⟨base,rfl⟩ := (endsWith_iff _ _).mp fits
      dsimp only
      rw [cut_append]
      have member : suffix ∈ quoteSuffixes := List.mem_of_find?_eq_some found
      simp only [quoteSuffixes,List.mem_cons,List.not_mem_nil,or_false] at member
      rcases member with rfl | rfl | rfl | rfl
      · exact .inl rfl
      · exact .inr (.inl rfl)
      · exact .inr (.inr (.inl rfl))
      · refine .inr (.inr (.inr (.inl ⟨rfl,?_⟩)))
        rintro ⟨shorter,rfl⟩
        have fits' := (endsWith_iff (shorter ++ "B" ++ "USD") "BUSD").mpr ⟨shorter,by rw [String.append_assoc]; rfl⟩
        rw [quoteSuffixes,List.find?_cons,List.find?_cons,fits'] at found
        split at found
        · exact absurd (Option.some.inj found) (by decide)
        · exact absurd (Option.some.inj found) (by decide)
  · rintro (rfl | rfl | rfl | ⟨rfl,notBusd⟩ | ⟨rfl,unquoted⟩)
    · exact stripQuote_of_fits [] ["BUSD","USDC","USD"] rfl (fun _ impossible => by cases impossible)
    · refine stripQuote_of_fits ["USDT"] ["USDC","USD"] rfl ?_
      intro other member ends
      rw [List.mem_singleton.mp member] at ends
      exact absurd (endsWith_last ends rfl rfl) (by decide)
    · refine stripQuote_of_fits ["USDT","BUSD"] ["USD"] rfl ?_
      intro other member ends
      simp only [List.mem_cons,List.not_mem_nil,or_false] at member
      rcases member with rfl | rfl
      · exact absurd (endsWith_last ends rfl rfl) (by decide)
      · exact absurd (endsWith_last ends rfl rfl) (by decide)
    · refine stripQuote_of_fits ["USDT","BUSD","USDC"] [] rfl ?_
      intro other member ends
      simp only [List.mem_cons,List.not_mem_nil,or_false] at member
      rcases member with rfl | rfl | rfl
      · exact absurd (endsWith_last ends rfl rfl) (by decide)
      · exact notBusd (endsWith_busd ends)
      · exact absurd (endsWith_last ends rfl rfl) (by decide)
    · have nothing : quoteSuffixes.find? (fun suffix => suffix.toList.isSuffixOf symbol.toList) = none := by
        rw [List.find?_eq_none]
        intro suffix member fits
        exact unquoted suffix member ((endsWith_iff _ _).mp fits)
      rw [stripQuote,nothing]

/-- An item of `premiumIndex` that only names its symbol. -/
def quoted (symbol : String) : Json := .obj [("symbol",.str symbol)]
def premiums (symbols : List String) : Op := .preloadTickerCache none (some (.arr (symbols.map quoted))) none

end AsterCollector
end FundingRadar
