import Mathlib.Data.List.DropRight
import PqcVpn.Server.Tunnel

/-!
# Text — the standard library's string functions the server reads with

`str::lines`, `split_whitespace`, `split_once`, `trim` and the parsing of unsigned integers, with
what they do to the texts the server writes.
-/

namespace PqcVpn
namespace Server

/-- `str::lines` on the pieces between line feeds: a carriage return before a line feed belongs to
it, and the text after the last one is a line unless it is empty. -/
def linesOf : List (List Char) → List (List Char)
  | [] => []
  | [l] => if l = [] then [] else [l]
  | l :: rest => (if l.getLast? = some '\r' then l.dropLast else l) :: linesOf rest

/-- `str::lines`. -/
def lines (s : String) : List String := (linesOf (s.toList.splitOn '\n')).map String.ofList

/-- `str::split_whitespace`. -/
def splitWhitespace (s : String) : List String :=
  ((s.toList.splitOnP isWhitespace).filter (· ≠ [])).map String.ofList

def dropSign : List Char → List Char
  | '+' :: rest => rest
  | cs => cs

/-- `str::parse` of an unsigned integer below `bound`: a sign `+` and leading zeros are taken. -/
def parseUnsigned (bound : Nat) (s : String) : Option Nat :=
  let digits := dropSign s.toList
  if digits ≠ [] ∧ digits.all Char.isDigit ∧ Nat.ofDigitChars 10 digits 0 < bound then
    some (Nat.ofDigitChars 10 digits 0)
  else
    none

/-- `str::split_once`. -/
def splitOnce (c : Char) (cs : List Char) : Option (List Char × List Char) :=
  match cs.dropWhile (· ≠ c) with
  | [] => none
  | _ :: rest => some (cs.takeWhile (· ≠ c), rest)

/-! ## Trimming -/

theorem dropWhile_of_forall {cs : List Char} (h : ∀ c ∈ cs, isWhitespace c = false)
    (rest : List Char) : cs ≠ [] → (cs ++ rest).dropWhile isWhitespace = cs ++ rest := by
  intro hne
  cases cs with
  | nil => exact absurd rfl hne
  | cons c cs =>
      rw [List.cons_append, List.dropWhile_cons, h c List.mem_cons_self]
      rfl

/-- White space after a text without any is cut. -/
theorem trim_append {s t : String} (hs : ∀ c ∈ s.toList, isWhitespace c = false)
    (ht : ∀ c ∈ t.toList, isWhitespace c = true) : trim (s ++ t) = s := by
  refine String.toList_injective ?_
  unfold trim
  rw [String.toList_ofList, String.toList_append]
  by_cases hne : s.toList = []
  · have hnil : t.toList.dropWhile isWhitespace = [] := List.dropWhile_eq_nil_iff.2 ht
    rw [hne, List.nil_append, hnil]
    rfl
  · have hback : (t.toList.reverse ++ s.toList.reverse).dropWhile isWhitespace =
        s.toList.reverse := by
      rw [List.dropWhile_append_of_pos fun c hc => ht c (List.mem_reverse.1 hc)]
      have hkeep := dropWhile_of_forall (fun c hc => hs c (List.mem_reverse.1 hc)) []
        (List.reverse_ne_nil_iff.2 hne)
      rwa [List.append_nil] at hkeep
    rw [dropWhile_of_forall hs _ hne, List.reverse_append, hback, List.reverse_reverse]

theorem trim_of_forall {s : String} (h : ∀ c ∈ s.toList, isWhitespace c = false) : trim s = s := by
  have htrim := trim_append (t := "") h (by simp)
  rwa [String.append_empty] at htrim

/-- What is left begins and ends with something else than white space. -/
theorem trim_trim (s : String) : trim (trim s) = trim s := by
  have htrim : ∀ t : String, (trim t).toList =
      (t.toList.dropWhile isWhitespace).rdropWhile isWhitespace := by
    intro t
    exact String.toList_ofList
  have hfront : (trim s).toList.dropWhile isWhitespace = (trim s).toList := by
    rw [List.dropWhile_eq_self_iff]
    intro hpos
    have hstart : (trim s).toList <+: s.toList.dropWhile isWhitespace := by
      rw [htrim]
      exact List.rdropWhile_prefix _ _
    rw [hstart.getElem hpos]
    exact List.dropWhile_get_zero_not _ _ _
  refine String.toList_injective ?_
  rw [htrim (trim s), hfront, htrim s, List.rdropWhile_idempotent]

/-! ## Lines -/

/-- A line that ends in a line feed, before more text. -/
theorem lines_cons {l : List Char} (hfeed : '\n' ∉ l) (hreturn : '\r' ∉ l) (rest : List Char) :
    lines (String.ofList (l ++ '\n' :: rest)) = String.ofList l :: lines (String.ofList rest) := by
  have hlast : ¬ l.getLast? = some '\r' := fun h => hreturn (List.mem_of_getLast? h)
  unfold lines
  rw [String.toList_ofList, String.toList_ofList, List.splitOn_append_cons_self_of_not_mem hfeed]
  cases hrest : rest.splitOn '\n' with
  | nil => exact absurd hrest (List.splitOn_ne_nil _ _)
  | cons p ps => rw [linesOf, if_neg hlast, List.map_cons]; simp

theorem lines_nil : lines (String.ofList []) = [] := by
  unfold lines
  rw [String.toList_ofList, List.splitOn_nil]
  rfl

/-- One line for each element. -/
theorem lines_flatMap {α : Type} (text : α → List Char)
    (htext : ∀ a, '\n' ∉ text a ∧ '\r' ∉ text a) (as : List α) :
    lines (String.ofList (as.flatMap fun a => text a ++ ['\n'])) =
      as.map fun a => String.ofList (text a) := by
  induction as with
  | nil => exact lines_nil
  | cons a as ih =>
      rw [List.flatMap_cons, List.append_assoc, List.map_cons, ← ih]
      exact lines_cons (htext a).1 (htext a).2 _

/-! ## Numbers -/

theorem mem_of_dropSign {cs : List Char} {c : Char} (h : c ∈ cs) : c = '+' ∨ c ∈ dropSign cs := by
  unfold dropSign
  split
  · exact List.mem_cons.1 h
  · exact .inr h

theorem dropSign_of_digits {cs : List Char} (h : ∀ c ∈ cs, c.isDigit = true) :
    dropSign cs = cs := by
  unfold dropSign
  split
  · exact absurd (h '+' List.mem_cons_self) (by decide)
  · rfl

theorem parseUnsigned_eq_some {bound : Nat} {s : String} {n : Nat}
    (h : parseUnsigned bound s = some n) :
    n < bound ∧ s ≠ "" ∧ ∀ c ∈ s.toList, c = '+' ∨ c.isDigit = true := by
  unfold parseUnsigned at h
  dsimp only at h
  by_cases hok : dropSign s.toList ≠ [] ∧ (dropSign s.toList).all Char.isDigit ∧
      Nat.ofDigitChars 10 (dropSign s.toList) 0 < bound
  · rw [if_pos hok] at h
    rcases hok with ⟨hne, hall, hlt⟩
    refine ⟨Option.some.inj h ▸ hlt, ?_, fun c hc => ?_⟩
    · rintro rfl
      exact hne rfl
    · exact (mem_of_dropSign hc).imp id (List.all_eq_true.1 hall c)
  · rw [if_neg hok] at h
    cases h

theorem parseUnsigned_of_digits {bound : Nat} {cs : List Char} (hne : cs ≠ [])
    (hdigits : ∀ c ∈ cs, c.isDigit = true) (hlt : Nat.ofDigitChars 10 cs 0 < bound) :
    parseUnsigned bound (String.ofList cs) = some (Nat.ofDigitChars 10 cs 0) := by
  unfold parseUnsigned
  rw [String.toList_ofList, dropSign_of_digits hdigits]
  exact if_pos ⟨hne, List.all_eq_true.2 hdigits, hlt⟩

/-! ## Splitting -/

theorem splitOnce_eq_some_iff {c : Char} {cs before rest : List Char} :
    splitOnce c cs = some (before, rest) ↔ cs = before ++ c :: rest ∧ c ∉ before := by
  unfold splitOnce
  constructor
  · intro h
    have hsplit : cs = cs.takeWhile (· ≠ c) ++ cs.dropWhile (· ≠ c) :=
      List.takeWhile_append_dropWhile.symm
    have hhead := List.head?_dropWhile_not (· ≠ c) cs
    cases hdrop : cs.dropWhile (· ≠ c) with
    | nil => rw [hdrop] at h; cases h
    | cons d ds =>
        rw [hdrop] at h hsplit hhead
        cases h
        have hd : d = c := by simpa using hhead
        refine ⟨hd ▸ hsplit, fun hmem => ?_⟩
        simpa using List.mem_takeWhile_imp hmem
  · rintro ⟨rfl, hnot⟩
    have hbefore : ∀ d ∈ before, decide (d ≠ c) = true := by
      intro d hd
      exact decide_eq_true fun h => hnot (h ▸ hd)
    rw [List.dropWhile_append_of_pos hbefore, List.takeWhile_append_of_pos hbefore]
    simp

theorem splitOnce_eq_none_iff {c : Char} {cs : List Char} : splitOnce c cs = none ↔ c ∉ cs := by
  constructor
  · intro h hmem
    rcases List.eq_append_cons_of_mem hmem with ⟨before, rest, hcs, hnot⟩
    rw [splitOnce_eq_some_iff.2 ⟨hcs, hnot⟩] at h
    cases h
  · intro hnot
    unfold splitOnce
    have hall : cs.dropWhile (· ≠ c) = [] := by
      rw [List.dropWhile_eq_nil_iff]
      intro d hd
      exact decide_eq_true fun h => hnot (h ▸ hd)
    rw [hall]

theorem mem_intercalate {sep c : Char} {texts : List (List Char)}
    (h : c ∈ [sep].intercalate texts) : c = sep ∨ ∃ o ∈ texts, c ∈ o := by
  induction texts with
  | nil => simp at h
  | cons o os ih =>
      cases os with
      | nil => exact .inr ⟨o, by simp, by simpa using h⟩
      | cons o' os =>
          rw [List.intercalate_cons_cons, List.append_assoc, List.mem_append,
            List.mem_append] at h
          rcases h with h | h | h
          · exact .inr ⟨o, by simp, h⟩
          · exact .inl (by simpa using h)
          · rcases ih h with h | ⟨t, ht, hmem⟩
            · exact .inl h
            · exact .inr ⟨t, List.mem_cons_of_mem _ ht, hmem⟩

end Server
end PqcVpn
