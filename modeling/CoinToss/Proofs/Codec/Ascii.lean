import CoinToss.Proofs.Codec.Numbers

/-!
# CoinToss.Proofs.Codec.Ascii

JSON text on one line, of printable ASCII characters.

A layout that escapes what is not ASCII and breaks no lines writes nothing but the characters from
the blank to the tilde, whatever the value: what a string holds beside those is escaped, and numbers
and punctuation are among them.

* `printable_quotedChar` — a character of a string;
* `printable_text` — a double;
* `printable_chars`, `printable_print` — a value.
-/

namespace CoinToss.Json

open Decimal Text

/-- The characters from the blank to the tilde. -/
def IsPrintable (c : Char) : Prop := 0x20 ≤ c.toNat ∧ c.toNat ≤ 0x7E

instance (c : Char) : Decidable (IsPrintable c) :=
  inferInstanceAs (Decidable (0x20 ≤ c.toNat ∧ c.toNat ≤ 0x7E))

/-- Text of printable characters. -/
def Printable (cs : List Char) : Prop := ∀ c ∈ cs, IsPrintable c

@[simp] theorem printable_nil : Printable [] := by simp [Printable]

@[simp] theorem printable_cons {c : Char} {cs : List Char} :
    Printable (c :: cs) ↔ IsPrintable c ∧ Printable cs := List.forall_mem_cons

@[simp] theorem printable_append {cs ds : List Char} :
    Printable (cs ++ ds) ↔ Printable cs ∧ Printable ds := List.forall_mem_append

theorem printable_flatMap {α : Type} {f : α → List Char} (h : ∀ a, Printable (f a))
    (as : List α) : Printable (as.flatMap f) := by
  intro c hc
  obtain ⟨a, -, ha⟩ := List.mem_flatMap.1 hc
  exact h a c ha

/-! ## numbers -/

theorem isPrintable_of_isDigit {c : Char} (h : c.isDigit = true) : IsPrintable c := by
  simp only [Char.isDigit, ge_iff_le, Bool.and_eq_true, decide_eq_true_eq,
    UInt32.le_iff_toNat_le] at h
  have hlow : 48 ≤ c.toNat := h.1
  have hhigh : c.toNat ≤ 57 := h.2
  exact ⟨by omega, by omega⟩

theorem printable_natDigits (n : Nat) : Printable (natDigits n) :=
  fun c hc => isPrintable_of_isDigit (isDigit_natDigits n c hc)

theorem printable_zeros (k : Nat) : Printable (List.replicate k '0') := by
  intro c hc
  rw [List.eq_of_mem_replicate hc]
  decide

theorem printable_intText (n : Int) : Printable (intText n).toList := by
  rw [toList_intText]
  have hminus : IsPrintable '-' := by decide
  split <;> simp [hminus, printable_natDigits]

theorem printable_unsigned (s : ShortestStyle) {digits : List Char} (h : Printable digits)
    (point : Int) : Printable (s.unsigned digits point) := by
  have htake (k : Nat) : Printable (digits.take k) := fun c hc => h c (List.mem_of_mem_take hc)
  have hdrop (k : Nat) : Printable (digits.drop k) := fun c hc => h c (List.mem_of_mem_drop hc)
  have hzero : IsPrintable '0' := by decide
  have hpoint : IsPrintable '.' := by decide
  have hmark : IsPrintable 'e' := by decide
  have hexponent : Printable (s.exponentText point) := by
    have hsign : IsPrintable (if point < 0 then '-' else '+') := by split <;> decide
    simp [ShortestStyle.exponentText, hsign, printable_zeros, printable_natDigits]
  unfold ShortestStyle.unsigned
  dsimp only
  split
  · split
    · simp [hzero, hpoint, printable_zeros, h]
    · split <;> simp [hzero, hpoint, printable_zeros, htake, hdrop]
  · split <;> simp [-List.drop_one, hpoint, hmark, hexponent, htake, hdrop]

theorem printable_text (x : Float) : Printable (numberStyle.text x).toList := by
  unfold ShortestStyle.text
  split
  · simp [numberStyle, IsPrintable]
  · split <;> simp [numberStyle, IsPrintable]
  · next negative m e _ =>
    dsimp only
    generalize hbody : (if m = 0 then ['0', '.', '0'] else _) = body
    have hprintable : Printable body := by
      rw [← hbody]
      split
      · simp [IsPrintable]
      · exact printable_unsigned numberStyle (printable_natDigits _) _
    have hminus : IsPrintable '-' := by decide
    cases negative <;> simp [hminus, hprintable]

/-! ## strings -/

theorem isPrintable_hexDigit {k : Nat} (h : k < 16) : IsPrintable (hexDigit k) := by
  have hall : ∀ k, k < 16 → IsPrintable (hexDigit k) := by decide
  exact hall k h

theorem printable_unitEscape (n : Nat) : Printable (unitEscape n) := by
  have hdigit (k : Nat) : IsPrintable (hexDigit (k % 16)) :=
    isPrintable_hexDigit (Nat.mod_lt k (by decide))
  have hback : IsPrintable '\\' := by decide
  have hunit : IsPrintable 'u' := by decide
  simp [unitEscape, hdigit, hback, hunit]

/-- What is not printable is escaped. -/
theorem printable_quotedChar (c : Char) : Printable (quotedChar true c) := by
  unfold quotedChar
  split
  case h_8 =>
    split
    · exact printable_flatMap printable_unitEscape _
    · next h =>
      simp only [Bool.true_and, Bool.or_eq_true, decide_eq_true_eq, not_or] at h
      simp only [printable_cons, printable_nil, and_true]
      exact ⟨by omega, by omega⟩
  all_goals simp [IsPrintable]

theorem printable_quoted (s : String) : Printable (quoted true s) := by
  have hquote : IsPrintable '"' := by decide
  simp [quoted, hquote, printable_flatMap printable_quotedChar]

theorem printable_quotedCodes (codes : List Nat) : Printable (quotedCodes true codes) := by
  have hquote : IsPrintable '"' := by decide
  have hcode (code : Nat) : Printable (quotedCode true code) := by
    unfold quotedCode
    split
    · exact printable_unitEscape code
    · exact printable_quotedChar _
  simp [quotedCodes, hquote, printable_flatMap hcode]

theorem printable_quotedName (name : String) (j : Json) : Printable (quotedName true name j) := by
  unfold quotedName
  split
  · exact printable_quotedCodes _
  · exact printable_quoted name

/-! ## values -/

variable {l : Layout}

theorem printable_newline (h : l.indent = none) (d : Nat) : Printable (l.newline d) := by
  simp [Layout.newline, h]

theorem printable_comma (h : l.indent = none) (d : Nat) : Printable (l.comma d) := by
  unfold Layout.comma
  rw [h]
  dsimp only
  split <;> simp [IsPrintable]

theorem printable_colon (l : Layout) : Printable l.colon := by
  unfold Layout.colon
  split <;> simp [IsPrintable]

mutual
/-- The text of a value is printable. -/
theorem printable_chars (hascii : l.ascii = true) (hindent : l.indent = none) (d : Nat) :
    (j : Json) → Printable (chars l d j)
  | .null => by simp [chars, IsPrintable]
  | .bool b => by cases b <;> simp [chars, IsPrintable]
  | .int n => by rw [chars]; exact printable_intText n
  | .number x => by rw [chars]; exact printable_text x
  | .string s => by rw [chars, hascii]; exact printable_quoted s
  | .broken codes => by rw [chars, hascii]; exact printable_quotedCodes codes
  | .array [] => by simp [chars, IsPrintable]
  | .array (x :: xs) => by
      have hbrackets : IsPrintable '[' ∧ IsPrintable ']' := by decide
      simp [chars, hbrackets, printable_newline hindent, printable_chars hascii hindent (d + 1) x,
        printable_elementChars hascii hindent (d + 1) xs]
  | .object [] => by simp [chars, IsPrintable]
  | .object ((k, v) :: ms) => by
      have hbraces : IsPrintable '\x7b' ∧ IsPrintable '\x7d' := by decide
      simp [chars, hbraces, hascii, printable_newline hindent, printable_quotedName,
        printable_colon, printable_chars hascii hindent (d + 1) v,
        printable_memberChars hascii hindent (d + 1) ms]
  | .misnamed _ v => by rw [chars]; exact printable_chars hascii hindent d v

theorem printable_elementChars (hascii : l.ascii = true) (hindent : l.indent = none) (d : Nat) :
    (xs : List Json) → Printable (elementChars l d xs)
  | [] => by simp [elementChars]
  | x :: xs => by
      simp [elementChars, printable_comma hindent, printable_chars hascii hindent d x,
        printable_elementChars hascii hindent d xs]

theorem printable_memberChars (hascii : l.ascii = true) (hindent : l.indent = none) (d : Nat) :
    (ms : List (String × Json)) → Printable (memberChars l d ms)
  | [] => by simp [memberChars]
  | (k, v) :: ms => by
      simp [memberChars, hascii, printable_comma hindent, printable_quotedName, printable_colon,
        printable_chars hascii hindent d v, printable_memberChars hascii hindent d ms]
end

end CoinToss.Json
