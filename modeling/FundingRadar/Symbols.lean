import Mathlib.Data.List.Basic

/-!
The tokens that collectors derive from the symbols of their exchanges.
-/
namespace FundingRadar

/-- A string without its occurrences of `-USD`, found from the left. -/
def withoutUsd : List Char → List Char
  | '-' :: 'U' :: 'S' :: 'D' :: rest => withoutUsd rest
  | c :: rest => c :: withoutUsd rest
  | [] => []

/-- `_strip_quote` of the Extended and of the Pacifica collector. -/
def ExtendedCollector.stripQuote (symbol : String) : String := String.ofList (withoutUsd symbol.toList)
def PacificaCollector.stripQuote (symbol : String) : String := String.ofList (withoutUsd symbol.toList)

/-- `_QUOTE_SUFFIXES`. -/
def AsterCollector.quoteSuffixes : List String := ["USDT","BUSD","USDC","USD"]
/-- `_strip_quote` of the Aster collector: the first suffix of the list that fits is cut off. -/
def AsterCollector.stripQuote (symbol : String) : String :=
  match quoteSuffixes.find? (fun suffix => suffix.toList.isSuffixOf symbol.toList) with
  | some suffix => String.ofList (symbol.toList.take (symbol.length - suffix.length))
  | none => symbol

/-- `upper` and `lower` on ASCII strings. -/
def asciiUpper (s : String) : String := String.ofList (s.toList.map Char.toUpper)
def asciiLower (s : String) : String := String.ofList (s.toList.map Char.toLower)

end FundingRadar
