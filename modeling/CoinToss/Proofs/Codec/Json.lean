import CoinToss.Proofs.Codec.Members
import CoinToss.Proofs.Codec.Numbers
import CoinToss.Proofs.Codec.Strings

/-!
# CoinToss.Proofs.Codec.Json

JSON text is read back.

What a grammar keeps is a matter of the values alone: integers and containers within its bounds,
doubles that are numbers unless it has words for the others, no broken strings, and objects that
name each member once.  Such a value is read back from its text in any layout, as blanks between
the parts of a text count for nothing:

```
value  --print l-->  text  --read g-->  value      if g.Keeps value
```

* `value_blanks`, `elements_blanks`, `members_blanks` — blanks in front of a text are skipped;
* `value_of_scalar`, `value_array`, `value_object` — a value from its parts;
* `Grammar.Keeps`, `ReadBack` — what is kept, and how a part of a text is read back;
* `elements_chars`, `members_chars`, `Grammar.Keeps.readBack` — containers, and every value;
* `read_print` — a whole text;
* `read?_print` — compact text of plain values, by the strict grammar.
-/

namespace CoinToss

open Decimal

namespace Json

theorem ok_bind {α β : Type} (a : α) (f : α → Attempt β) : (Except.ok a >>= f) = f a := rfl

/-! ## blanks -/

/-- Text of blanks only. -/
def AreBlank (cs : List Char) : Prop := ∀ c ∈ cs, isSpace c = true

variable {g inner : Grammar} {fuel : Nat} {blanks cs more rest : List Char}

theorem skipSpace_cons {c : Char} (cs : List Char) (h : isSpace c = false) :
    skipSpace (c :: cs) = c :: cs := by
  simp [skipSpace, h]

theorem skipSpace_append (h : AreBlank blanks) (cs : List Char) :
    skipSpace (blanks ++ cs) = skipSpace cs :=
  List.dropWhile_append_of_pos h

theorem areBlank_newline (l : Layout) (d : Nat) : AreBlank (l.newline d) := by
  intro c hc
  unfold Layout.newline at hc
  split at hc
  · contradiction
  · rcases List.mem_cons.1 hc with rfl | hc
    · rfl
    · rw [List.eq_of_mem_replicate hc]
      rfl

/-- A comma has blanks behind it, and nothing else. -/
theorem comma_eq (l : Layout) (d : Nat) :
    ∃ blanks, l.comma d = ',' :: blanks ∧ AreBlank blanks := by
  unfold Layout.comma
  split
  · split
    · exact ⟨[' '], rfl, by simp [AreBlank, isSpace]⟩
    · exact ⟨[], rfl, by simp [AreBlank]⟩
  · exact ⟨_, rfl, areBlank_newline l d⟩

/-- A colon has blanks behind it, and nothing else. -/
theorem colon_eq (l : Layout) : ∃ blanks, l.colon = ':' :: blanks ∧ AreBlank blanks := by
  unfold Layout.colon
  split
  · exact ⟨[' '], rfl, by simp [AreBlank, isSpace]⟩
  · exact ⟨[], rfl, by simp [AreBlank]⟩

/-- Blanks go on with no number. -/
theorem ends_blanks (h : AreBlank blanks) (hrest : Ends rest) : Ends (blanks ++ rest) := by
  cases blanks with
  | nil => exact hrest
  | cons c blanks =>
      refine ends_cons _ ?_
      have hc := h c (by simp)
      simp only [isSpace, Bool.or_eq_true, beq_iff_eq] at hc
      rcases hc with ((rfl | rfl) | rfl) | rfl <;> decide

/-! ## the parts of a text -/

/-- Blanks in front of a value are skipped. -/
theorem value_blanks (h : AreBlank blanks) (cs : List Char) :
    value g fuel (blanks ++ cs) = value g fuel cs := by
  cases fuel with
  | zero => rfl
  | succ fuel => rw [value, value, skipSpace_append h]

theorem elements_blanks (h : AreBlank blanks) (cs : List Char) :
    elements g fuel (blanks ++ cs) = elements g fuel cs := by
  cases fuel with
  | zero => rfl
  | succ fuel => rw [elements, elements, value_blanks h]

theorem members_blanks (h : AreBlank blanks) (cs : List Char) :
    members g fuel (blanks ++ cs) = members g fuel cs := by
  cases fuel with
  | zero => rfl
  | succ fuel => rw [members, members, skipSpace_append h]

/-- What begins with none of the words' characters and no digit is no word and no number. -/
theorem scalar_malformed (g : Grammar) {c : Char} (hdigit : c.isDigit = false)
    (hword : c ∉ ['n', 't', 'f', 'N', 'I', '-']) (cs : List Char) :
    scalar g (c :: cs) = .error .malformed := by
  simp only [List.mem_cons, List.not_mem_nil, or_false, not_or] at hword
  obtain ⟨hn, ht, hf, hN, hI, hminus⟩ := hword
  obtain ⟨words, _, _, _, _⟩ := g
  cases words <;> simp [scalar, word?, isPrefixOf?_of_ne, hn, ht, hf, hN, hI, hminus,
    unsignedNumber, spanDigits, Text.asciiDigit?, hdigit]

/-- A word or a number is a value. -/
theorem value_of_scalar {r : Json × List Char} (h : scalar g cs = .ok r) :
    value g (fuel + 1) cs = .ok r := by
  -- so it begins with no blank, quotation mark, bracket or brace
  have hhead {c : Char} (hdigit : c.isDigit = false) (hword : c ∉ ['n', 't', 'f', 'N', 'I', '-'])
      (cs' : List Char) : cs ≠ c :: cs' := by
    rintro rfl
    rw [scalar_malformed g hdigit hword] at h
    contradiction
  have hskip : skipSpace cs = cs := by
    cases cs with
    | nil => rfl
    | cons c cs =>
        refine skipSpace_cons cs (Bool.eq_false_iff.2 fun hc => ?_)
        simp only [isSpace, Bool.or_eq_true, beq_iff_eq] at hc
        rcases hc with ((rfl | rfl) | rfl) | rfl <;> exact hhead rfl (by decide) cs rfl
  rw [value, hskip]
  split
  · exact absurd rfl (hhead rfl (by decide) _)
  · exact absurd rfl (hhead rfl (by decide) _)
  · exact absurd rfl (hhead rfl (by decide) _)
  · exact h

/-- No element begins with the closing bracket. -/
theorem elements_bracket (h : skipSpace cs = ']' :: more) :
    elements g fuel cs = .error .malformed := by
  obtain _ | _ | fuel := fuel
  · rfl
  · rfl
  · have hvalue : value g (fuel + 1) cs = .error .malformed := by
      rw [value, h]
      exact scalar_malformed g rfl (by decide) more
    rw [elements, hvalue]
    rfl

/-- No member begins with the closing brace. -/
theorem members_brace (h : skipSpace cs = '\x7d' :: more) :
    members g fuel cs = .error .malformed := by
  cases fuel with
  | zero => rfl
  | succ fuel =>
      rw [members, h]
      rfl

theorem value_quoted (g : Grammar) (fuel : Nat) (ascii : Bool) (s : String) (rest : List Char) :
    value g (fuel + 1) (quoted ascii s ++ rest) = .ok (.string s, rest) := by
  have htail := stringTail_quoted g ascii s rest
  rw [quoted, List.cons_append, List.append_assoc, List.singleton_append, value,
    skipSpace_cons _ (by decide)]
  simp only [htail]
  show Except.ok (ofCodes _, rest) = _
  rw [ofCodes_codes]

/-! ## containers -/

/-- A container that is not empty is read by its elements. -/
theorem value_array {xs : List Json} (hblanks : AreBlank blanks)
    (hinside : g.inside .array = .ok inner) (h : elements inner fuel cs = .ok (xs, rest)) :
    value g (fuel + 1) ('[' :: (blanks ++ cs)) = .ok (.array xs, rest) := by
  -- as elements were read, the container is not closed at once
  have hopen (more : List Char) : skipSpace cs ≠ ']' :: more := by
    intro hclosing
    rw [elements_bracket hclosing] at h
    contradiction
  rw [value, skipSpace_cons _ (by decide)]
  simp only [hinside, ok_bind, skipSpace_append hblanks, elements_blanks hblanks, h]
  rfl

/-- A container that is not empty is read by its members. -/
theorem value_object {ms : List (String × Json)} (hblanks : AreBlank blanks)
    (hinside : g.inside .object = .ok inner) (hnames : (ms.map (·.1)).Nodup)
    (h : members inner fuel cs = .ok (ms, rest)) :
    value g (fuel + 1) ('\x7b' :: (blanks ++ cs)) = .ok (.object ms, rest) := by
  have hopen (more : List Char) : skipSpace cs ≠ '\x7d' :: more := by
    intro hclosing
    rw [members_brace hclosing] at h
    contradiction
  rw [value, skipSpace_cons _ (by decide)]
  simp only [hinside, ok_bind, skipSpace_append hblanks, members_blanks hblanks, h,
    Members.ofPairs_of_nodup hnames]
  rfl

theorem elements_last {x : Json} (hblanks : AreBlank blanks)
    (h : value g fuel cs = .ok (x, blanks ++ ']' :: rest)) :
    elements g (fuel + 1) cs = .ok ([x], rest) := by
  rw [elements, h, ok_bind]
  simp only [skipSpace_append hblanks, skipSpace_cons rest (c := ']') rfl]
  rfl

theorem elements_comma {x : Json} {xs : List Json} (h : value g fuel cs = .ok (x, ',' :: more))
    (hmore : elements g fuel more = .ok (xs, rest)) :
    elements g (fuel + 1) cs = .ok (x :: xs, rest) := by
  rw [elements, h, ok_bind]
  simp only [skipSpace_cons more (c := ',') rfl, hmore]
  rfl

theorem members_last {v : Json} (ascii : Bool) (k : String) (hblanks : AreBlank blanks)
    (h : value g fuel cs = .ok (v, blanks ++ '\x7d' :: rest)) :
    members g (fuel + 1) (quoted ascii k ++ ':' :: cs) = .ok ([(k, v)], rest) := by
  rw [quoted, List.cons_append, List.append_assoc, List.singleton_append, members,
    skipSpace_cons _ (by decide)]
  simp only [stringTail_quoted, ok_bind, skipSpace_cons cs (c := ':') rfl, h,
    skipSpace_append hblanks, skipSpace_cons rest (c := '\x7d') rfl, member_codes]
  rfl

theorem members_comma {v : Json} {ms : List (String × Json)} (ascii : Bool) (k : String)
    (h : value g fuel cs = .ok (v, ',' :: more)) (hmore : members g fuel more = .ok (ms, rest)) :
    members g (fuel + 1) (quoted ascii k ++ ':' :: cs) = .ok ((k, v) :: ms, rest) := by
  rw [quoted, List.cons_append, List.append_assoc, List.singleton_append, members,
    skipSpace_cons _ (by decide)]
  simp only [stringTail_quoted, ok_bind, skipSpace_cons cs (c := ':') rfl, h,
    skipSpace_cons more (c := ',') rfl, hmore, member_codes]
  rfl

/-! ## values -/

/-- Values that a grammar keeps: it reads back what is written of them. -/
inductive Grammar.Keeps : Grammar → Json → Prop
  | null {g : Grammar} : g.Keeps .null
  | bool {g : Grammar} (b : Bool) : g.Keeps (.bool b)
  | int {g : Grammar} {n : Int} (h : g.Admits n) : g.Keeps (.int n)
  | number {g : Grammar} {x : Float} (h : g.words = true ∨ x.isFinite = true) : g.Keeps (.number x)
  | string {g : Grammar} (s : String) : g.Keeps (.string s)
  | array {g inner : Grammar} {xs : List Json} (hinside : g.inside .array = .ok inner)
      (h : ∀ x ∈ xs, inner.Keeps x) : g.Keeps (.array xs)
  | object {g inner : Grammar} {ms : List (String × Json)} (hinside : g.inside .object = .ok inner)
      (hnames : (ms.map (·.1)).Nodup) (h : ∀ m ∈ ms, inner.Keeps m.2) : g.Keeps (.object ms)

/-- A grammar with room for containers nested so deep. -/
def Grammar.nested (g : Grammar) (depth : Nat) : Grammar := { g with nesting := some depth }

theorem Grammar.inside_nested (g : Grammar) (depth : Nat) (kind : Container) :
    (g.nested (depth + 1)).inside kind = .ok (g.nested depth) := rfl

theorem Grammar.keeps_nested_object {depth : Nat} {ms : List (String × Json)}
    (hnames : (ms.map (·.1)).Nodup) (h : ∀ m ∈ ms, (g.nested depth).Keeps m.2) :
    (g.nested (depth + 1)).Keeps (.object ms) :=
  .object (g.inside_nested depth .object) hnames h

/-- A value that is read as far as it was written, whatever ends it. -/
structure ReadBack (l : Layout) (g : Grammar) (j : Json) : Prop where
  /-- The name of a member with this value is written as it is. -/
  named (name : String) : quotedName l.ascii name j = quoted l.ascii name
  value_chars (d : Nat) {fuel : Nat} {rest : List Char} (hrest : Ends rest)
    (hfuel : 2 * (chars l d j).length + 2 ≤ fuel) :
    value g fuel (chars l d j ++ rest) = .ok (j, rest)

variable {l : Layout}

theorem readBack_scalar {j : Json}
    (hnamed : ∀ name, quotedName l.ascii name j = quoted l.ascii name)
    (h : ∀ d rest, Ends rest → scalar g (chars l d j ++ rest) = .ok (j, rest)) :
    ReadBack l g j where
  named := hnamed
  value_chars d fuel rest hrest hfuel := by
    obtain ⟨fuel, rfl⟩ := Nat.exists_eq_succ_of_ne_zero (show fuel ≠ 0 by omega)
    exact value_of_scalar (h d rest hrest)

/-- Elements are read back up to the closing bracket. -/
theorem elements_chars (d fuel : Nat) {x : Json} {xs : List Json}
    (h : ∀ y ∈ x :: xs, ReadBack l g y)
    (hfuel : 2 * (chars l d x ++ elementChars l d xs).length + 3 ≤ fuel)
    (hblanks : AreBlank blanks) (rest : List Char) :
    elements g fuel (chars l d x ++ (elementChars l d xs ++ (blanks ++ ']' :: rest))) =
      .ok (x :: xs, rest) := by
  obtain ⟨fuel, rfl⟩ := Nat.exists_eq_succ_of_ne_zero (show fuel ≠ 0 by omega)
  have hx := h x (by simp)
  induction xs generalizing x fuel with
  | nil =>
      rw [elementChars, List.append_nil] at hfuel
      rw [elementChars, List.nil_append]
      exact elements_last hblanks (hx.value_chars d
        (ends_blanks hblanks (ends_cons rest (by decide))) (by omega))
  | cons y ys ih =>
      obtain ⟨gap, hcomma, hgap⟩ := comma_eq l d
      simp only [elementChars, hcomma, List.length_append, List.length_cons] at hfuel
      have htext : elementChars l d (y :: ys) ++ (blanks ++ ']' :: rest) =
          ',' :: (gap ++ (chars l d y ++ (elementChars l d ys ++ (blanks ++ ']' :: rest)))) := by
        simp [elementChars, hcomma]
      obtain ⟨fuel, rfl⟩ := Nat.exists_eq_succ_of_ne_zero (show fuel ≠ 0 by omega)
      have hmore := ih (x := y) (fun z hz => h z (by simp [hz])) fuel
        (by rw [List.length_append]; omega) (h y (by simp))
      rw [htext]
      exact elements_comma (hx.value_chars d (ends_cons _ (by decide)) (by omega))
        ((elements_blanks hgap _).trans hmore)

/-- Members are read back up to the closing brace. -/
theorem members_chars (d fuel : Nat) {k : String} {v : Json} {ms : List (String × Json)}
    (h : ∀ m ∈ (k, v) :: ms, ReadBack l g m.2)
    (hfuel : 2 * (l.colon ++ (chars l d v ++ memberChars l d ms)).length + 1 ≤ fuel)
    (hblanks : AreBlank blanks) (rest : List Char) :
    members g fuel (quoted l.ascii k ++ (l.colon ++ (chars l d v ++
      (memberChars l d ms ++ (blanks ++ '\x7d' :: rest))))) = .ok ((k, v) :: ms, rest) := by
  obtain ⟨fuel, rfl⟩ := Nat.exists_eq_succ_of_ne_zero (show fuel ≠ 0 by omega)
  obtain ⟨gap, hcolon, hgap⟩ := colon_eq l
  have hv : ReadBack l g v := h (k, v) (by simp)
  simp only [hcolon, List.length_append, List.length_cons, List.cons_append] at hfuel ⊢
  induction ms generalizing k v fuel with
  | nil =>
      rw [memberChars, List.length_nil] at hfuel
      rw [memberChars, List.nil_append]
      refine members_last l.ascii k hblanks ?_
      rw [value_blanks hgap]
      exact hv.value_chars d (ends_blanks hblanks (ends_cons rest (by decide))) (by omega)
  | cons m ms ih =>
      obtain ⟨k', v'⟩ := m
      have hv' : ReadBack l g v' := h (k', v') (by simp)
      obtain ⟨space, hcomma, hspace⟩ := comma_eq l d
      have htext : memberChars l d ((k', v') :: ms) ++ (blanks ++ '\x7d' :: rest) =
          ',' :: (space ++ (quoted l.ascii k' ++ ':' :: (gap ++ (chars l d v' ++
            (memberChars l d ms ++ (blanks ++ '\x7d' :: rest)))))) := by
        simp [memberChars, hcomma, hcolon, hv'.named]
      simp only [memberChars, hcomma, hcolon, List.length_append, List.length_cons] at hfuel
      obtain ⟨fuel, rfl⟩ := Nat.exists_eq_succ_of_ne_zero (show fuel ≠ 0 by omega)
      have hmore := ih (k := k') (v := v') (fun n hn => h n (by simp [hn])) fuel hv' (by omega)
      rw [htext]
      refine members_comma l.ascii k ?_ ((members_blanks hspace _).trans hmore)
      rw [value_blanks hgap]
      exact hv.value_chars d (ends_cons _ (by decide)) (by omega)

/-- A value that is kept is read back from whatever layout. -/
theorem Grammar.Keeps.readBack {j : Json} (h : g.Keeps j) (l : Layout) : ReadBack l g j := by
  induction h with
  | null => exact readBack_scalar (fun _ => rfl) fun _ rest _ => scalar_null _ rest
  | bool b => exact readBack_scalar (fun _ => rfl) fun _ rest _ => scalar_bool _ b rest
  | int h => exact readBack_scalar (fun _ => rfl) fun _ rest hrest => scalar_int h hrest
  | number h => exact readBack_scalar (fun _ => rfl) fun _ rest hrest => scalar_number h hrest
  | string s =>
      refine ⟨fun _ => rfl, fun d fuel rest _ hfuel => ?_⟩
      obtain ⟨fuel, rfl⟩ := Nat.exists_eq_succ_of_ne_zero (show fuel ≠ 0 by omega)
      exact value_quoted _ fuel l.ascii s rest
  | @array g inner xs hinside h ih =>
      refine ⟨fun _ => rfl, fun d fuel rest _ hfuel => ?_⟩
      obtain ⟨fuel, rfl⟩ := Nat.exists_eq_succ_of_ne_zero (show fuel ≠ 0 by omega)
      cases xs with
      | nil =>
          rw [chars, List.cons_append, value, skipSpace_cons _ (by decide)]
          simp only [hinside, ok_bind]
          rfl
      | cons x xs =>
          have htext (rest : List Char) : chars l d (.array (x :: xs)) ++ rest =
              '[' :: (l.newline (d + 1) ++ (chars l (d + 1) x ++
                (elementChars l (d + 1) xs ++ (l.newline d ++ ']' :: rest)))) := by
            simp [chars]
          have hlength := congrArg List.length (htext [])
          simp only [List.append_nil, List.length_cons, List.length_append] at hlength
          have helements := elements_chars (d + 1) fuel ih
            (by rw [List.length_append]; omega) (areBlank_newline l d) rest
          rw [htext]
          exact value_array (areBlank_newline l (d + 1)) hinside helements
  | @object g inner ms hinside hnames h ih =>
      refine ⟨fun _ => rfl, fun d fuel rest _ hfuel => ?_⟩
      obtain ⟨fuel, rfl⟩ := Nat.exists_eq_succ_of_ne_zero (show fuel ≠ 0 by omega)
      cases ms with
      | nil =>
          rw [chars, List.cons_append, value, skipSpace_cons _ (by decide)]
          simp only [hinside, ok_bind]
          rfl
      | cons m ms =>
          obtain ⟨k, v⟩ := m
          have hv : ReadBack l inner v := ih (k, v) (by simp)
          have htext (rest : List Char) : chars l d (.object ((k, v) :: ms)) ++ rest =
              '\x7b' :: (l.newline (d + 1) ++ (quoted l.ascii k ++ (l.colon ++ (chars l (d + 1) v ++
                (memberChars l (d + 1) ms ++ (l.newline d ++ '\x7d' :: rest)))))) := by
            simp [chars, hv.named]
          have hlength := congrArg List.length (htext [])
          simp only [List.append_nil, List.length_cons, List.length_append] at hlength
          have hmembers := members_chars (d + 1) fuel ih
            (by simp only [List.length_append]; omega) (areBlank_newline l d) rest
          rw [htext]
          exact value_object (areBlank_newline l (d + 1)) hinside hnames hmembers

/-- Text of a value that a grammar keeps is read as the value, however it is laid out. -/
theorem read_print {j : Json} (h : g.Keeps j) (l : Layout) : read g (print l j) = .ok j := by
  have hvalue := (h.readBack l).value_chars 0 ends_nil (Nat.le_refl _)
  rw [List.append_nil] at hvalue
  rw [read, print, String.toList_ofList, readChars, hvalue]
  rfl

/-! ## the strict grammar -/

mutual
/-- Values that the strict grammar reads back, nested so deep at most. -/
def isPlain : Nat → Json → Bool
  | _, .null | _, .bool _ | _, .string _ => true
  | _, .int n => fits64 n
  | depth + 1, .array xs => arePlain depth xs
  | depth + 1, .object ms => havePlain depth ms && decide (ms.map (·.1)).Nodup
  | _, _ => false

/-- Elements that are read back. -/
def arePlain : Nat → List Json → Bool
  | _, [] => true
  | depth, x :: xs => isPlain depth x && arePlain depth xs

/-- Members whose values are read back. -/
def havePlain : Nat → List (String × Json) → Bool
  | _, [] => true
  | depth, (_, v) :: ms => isPlain depth v && havePlain depth ms
end

mutual
/-- Plain values are kept. -/
theorem keeps_of_isPlain : (depth : Nat) → (j : Json) → isPlain depth j = true →
    (Grammar.strict.nested depth).Keeps j
  | _, .null, _ => .null
  | _, .bool b, _ => .bool b
  | _, .string s, _ => .string s
  | _, .int n, h => by
      rw [isPlain] at h
      exact .int ⟨.inr h, by simp [Grammar.nested, Grammar.strict]⟩
  | depth + 1, .array xs, h => by
      rw [isPlain] at h
      exact .array (Grammar.inside_nested .strict depth .array) (keeps_of_arePlain depth xs h)
  | depth + 1, .object ms, h => by
      simp only [isPlain, Bool.and_eq_true, decide_eq_true_eq] at h
      exact Grammar.keeps_nested_object h.2 (keeps_of_havePlain depth ms h.1)
  | 0, .array _, h | 0, .object _, h => by simp [isPlain] at h
  | _, .number _, h | _, .broken _, h | _, .misnamed _ _, h => by simp [isPlain] at h

theorem keeps_of_arePlain : (depth : Nat) → (xs : List Json) → arePlain depth xs = true →
    ∀ x ∈ xs, (Grammar.strict.nested depth).Keeps x
  | _, [], _ => by simp
  | depth, x :: xs, h => by
      simp only [arePlain, Bool.and_eq_true] at h
      exact List.forall_mem_cons.2 ⟨keeps_of_isPlain depth x h.1, keeps_of_arePlain depth xs h.2⟩

theorem keeps_of_havePlain : (depth : Nat) → (ms : List (String × Json)) →
    havePlain depth ms = true → ∀ m ∈ ms, (Grammar.strict.nested depth).Keeps m.2
  | _, [], _ => by simp
  | depth, (k, v) :: ms, h => by
      simp only [havePlain, Bool.and_eq_true] at h
      exact List.forall_mem_cons.2 ⟨keeps_of_isPlain depth v h.1, keeps_of_havePlain depth ms h.2⟩
end

/-- Compact text is read back as the value it was written for. -/
theorem read?_print {j : Json} (h : isPlain 1024 j = true) :
    read? .strict (print .compact j) = some j := by
  have hread := read_print (keeps_of_isPlain 1024 j h) .compact
  have hstrict : Grammar.strict.nested 1024 = .strict := rfl
  rw [hstrict] at hread
  rw [read?, hread]
  rfl

end Json

end CoinToss
