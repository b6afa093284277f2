/-
  Reading the JSON that was written.

  A value whose strings are texts, and which holds no numbers, is read back from its text, alone or
  with white space behind it (`read?_pretty_append`).  Strings come first, where every escape is read
  as the character that it stands for; then values, by recursion on the value, with what follows it and
  the fuel left open.
-/
import Mathlib.Data.List.Basic
import Stencil.Json.Printer
import Stencil.Json.Reader

namespace Stencil.Json

/-! ## Strings -/

theorem hexValue?_hexChar (n : Nat) : hexValue? (hexChar n) = some (n % 16) := by
  have hall : ∀ m : Fin 16, hexValue? (Nat.digitChar m) = some m.1 := by decide
  exact hall ⟨n % 16, Nat.mod_lt n (by decide)⟩

/-- The escape of a control character without a letter of its own. -/
theorem readUnits_code {c : Char} (h : c.toNat < 0x20) (rest : List Char) :
    readUnits ('\\' :: 'u' :: '0' :: '0' :: hexChar (c.toNat / 16) :: hexChar c.toNat :: rest) =
      (readUnits rest).map fun p => (.char c :: p.1, p.2) := by
  have hcode : hexFour? '0' '0' (hexChar (c.toNat / 16)) (hexChar c.toNat) = some c.toNat := by
    have hzero : hexValue? '0' = some 0 := by decide
    rw [hexFour?, hzero, hexValue?_hexChar, hexValue?_hexChar]
    simp only [Option.bind_eq_bind, Option.bind_some, Option.pure_def, Option.some.injEq]
    omega
  have hunit : unitOfCode c.toNat = .char c := by
    rw [unitOfCode, if_neg (by omega), Char.ofNat_toNat]
  rw [readUnits, hcode, Option.bind_some, hunit]

/-- A character that needs no escape. -/
theorem readUnits_plain {c : Char} (hquote : c ≠ '"') (hslash : c ≠ '\\') (h : ¬ c.toNat < 0x20)
    (rest : List Char) :
    readUnits (c :: rest) = (readUnits rest).map fun p => (.char c :: p.1, p.2) := by
  have hnone : ¬ (c.toNat < 0x20 ∨ c = '\\') := fun hor => hor.elim h hslash
  rw [readUnits, if_neg hnone]
  · exact hquote
  · exact fun _ _ _ _ _ heq => absurd heq hslash
  · exact fun _ _ heq => absurd heq hslash

/-- **A character is read back from its escape.** -/
theorem readUnits_escapeChar (c : Char) (rest : List Char) :
    readUnits (escapeChar c ++ rest) = (readUnits rest).map fun p => (.char c :: p.1, p.2) := by
  unfold escapeChar
  split
  case h_8 hquote hslash _ _ _ _ _ =>
    split
    case isTrue hcontrol => exact readUnits_code hcontrol rest
    case isFalse hcontrol => exact readUnits_plain hquote hslash hcontrol rest
  all_goals simp [readUnits, escaped?]

/-- The characters of a text are read back up to the quote that ends it. -/
theorem readUnits_printed (cs rest : List Char) :
    readUnits (cs.flatMap escapeChar ++ '"' :: rest) = some (cs.map .char, rest) := by
  induction cs with
  | nil => simp [readUnits]
  | cons c cs ih =>
    rw [List.flatMap_cons, List.append_assoc, readUnits_escapeChar, ih]
    rfl

theorem unitsText?_chars (cs : List Char) : unitsText? (cs.map .char) = some cs := by
  induction cs with
  | nil => rfl
  | cons c cs ih => rw [List.map_cons, unitsText?, ih, Option.map_some]

/-- **A string is read back**, behind its opening quote. -/
theorem readString_printed (s : String) (rest : List Char) :
    readString (s.toList.flatMap escapeChar ++ '"' :: rest) = some (some s, rest) := by
  rw [readString, readUnits_printed, Option.map_some]
  dsimp only
  rw [unitsText?_chars, Option.map_some, String.ofList_toList]

/-! ## White space -/

/-- A new line and its indent are skipped before what follows. -/
theorem skipSpace_newLine (indent : Nat) (cs : List Char) :
    skipSpace (newLine indent ++ cs) = skipSpace cs := by
  have hblank : ∀ n, skipSpace (List.replicate n ' ' ++ cs) = skipSpace cs := by
    intro n
    induction n with
    | zero => rfl
    | succ n ih =>
      rw [List.replicate_succ, List.cons_append, skipSpace, List.dropWhile_cons_of_pos (by decide)]
      exact ih
  rw [newLine, List.cons_append, skipSpace, List.dropWhile_cons_of_pos (by decide)]
  exact hblank _

theorem skipSpace_cons {c : Char} (h : isSpace c = false) (cs : List Char) :
    skipSpace (c :: cs) = c :: cs := by
  rw [skipSpace, List.dropWhile_cons_of_neg (by rw [h]; decide)]

/-! ## Values -/

mutual

/-- A value without numbers whose strings are texts. -/
def IsTextual : Json → Prop
  | null => True
  | bool _ => True
  | number _ => False
  | string s => s.isSome = true
  | array xs => AreTextual xs
  | object ms => MembersTextual ms

/-- Such values. -/
def AreTextual : List Json → Prop
  | [] => True
  | x :: xs => IsTextual x ∧ AreTextual xs

/-- Members with such values under names that are texts. -/
def MembersTextual : List (Option String × Json) → Prop
  | [] => True
  | (name, x) :: ms => name.isSome = true ∧ IsTextual x ∧ MembersTextual ms

end

/-- The first character of a value is no white space, and no bracket that closes. -/
theorem exists_print_eq {j : Json} (h : j.IsTextual) (indent : Nat) :
    ∃ c cs, print indent j = c :: cs ∧ isSpace c = false ∧ c ≠ ']' := by
  cases j with
  | null => exact ⟨'n', _, by rw [print]; rfl, by decide, by decide⟩
  | bool b => cases b <;> exact ⟨_, _, by rw [print]; rfl, by decide, by decide⟩
  | number literal => exact h.elim
  | string s => exact ⟨'"', _, by rw [print]; rfl, by decide, by decide⟩
  | array xs =>
    cases xs with
    | nil => exact ⟨'[', _, by rw [print], by decide, by decide⟩
    | cons x xs => exact ⟨'[', _, by rw [print]; rfl, by decide, by decide⟩
  | object ms =>
    cases ms with
    | nil => exact ⟨'\x7b', _, by rw [print], by decide, by decide⟩
    | cons m ms => exact ⟨'\x7b', _, by rw [print]; rfl, by decide, by decide⟩

/-- Nothing is skipped before a value: it begins with a character that is no white space. -/
theorem skipSpace_print {j : Json} (h : j.IsTextual) (indent : Nat) (cs : List Char) :
    skipSpace (print indent j ++ cs) = print indent j ++ cs := by
  obtain ⟨c, cs', hprint, hspace, -⟩ := exists_print_eq h indent
  rw [hprint, List.cons_append, skipSpace_cons hspace]

/-- An array that is not empty goes on with its elements. -/
theorem readValue_bracket {c : Char} {cs cs' : List Char} (fuel : Nat) (hskip : skipSpace cs = c :: cs')
    (hc : c ≠ ']') : readValue (fuel + 1) ('[' :: cs) =
      (readElements fuel (c :: cs')).map fun p => (.array p.1, p.2) := by
  rw [readValue]
  dsimp only
  rw [hskip]
  split
  case h_1 heq => exact absurd (List.cons.inj heq).1 hc
  case h_2 => rfl

/-- An object that is not empty goes on with its members. -/
theorem readValue_brace {c : Char} {cs cs' : List Char} (fuel : Nat) (hskip : skipSpace cs = c :: cs')
    (hc : c ≠ '\x7d') : readValue (fuel + 1) ('\x7b' :: cs) =
      (readMembers fuel (c :: cs')).map fun p => (.object p.1, p.2) := by
  rw [readValue]
  dsimp only
  rw [hskip]
  split
  case h_1 heq => exact absurd (List.cons.inj heq).1 hc
  case h_2 => rfl

/-- The last element. -/
theorem readElements_last {fuel : Nat} {x : Json} {cs after rest : List Char}
    (hx : readValue fuel cs = some (x, after)) (hskip : skipSpace after = ']' :: rest) :
    readElements (fuel + 1) cs = some ([x], rest) := by
  rw [readElements, hx, Option.bind_some]
  dsimp only
  rw [hskip]
  rfl

/-- An element with others behind it. -/
theorem readElements_more {fuel : Nat} {x : Json} {cs after rest : List Char}
    (hx : readValue fuel cs = some (x, after)) (hskip : skipSpace after = ',' :: rest) :
    readElements (fuel + 1) cs =
      (readElements fuel (skipSpace rest)).map fun p => (x :: p.1, p.2) := by
  rw [readElements, hx, Option.bind_some]
  dsimp only
  rw [hskip]
  rfl

/-- A member up to its value. -/
theorem readMembers_colon (fuel : Nat) (name : String) (after : List Char) :
    readMembers (fuel + 1) (printString name.toList ++ ':' :: after) =
      (readValue fuel (skipSpace after)).bind fun p =>
        match skipSpace p.2 with
        | '\x7d' :: rest => some ([(some name, p.1)], rest)
        | ',' :: rest =>
          (readMembers fuel (skipSpace rest)).map fun q => ((some name, p.1) :: q.1, q.2)
        | _ => none := by
  have hstring : readString (name.toList.flatMap escapeChar ++ ['"'] ++ ':' :: after) =
      some (some name, ':' :: after) := by
    rw [List.append_assoc]
    exact readString_printed name _
  rw [printString, List.cons_append, List.cons_append, readMembers, if_pos rfl, hstring,
    Option.bind_some]
  dsimp only
  rw [skipSpace_cons (show isSpace ':' = false by decide)]
  rfl

/-- The last member. -/
theorem readMembers_last {fuel : Nat} {x : Json} {after next rest : List Char} (name : String)
    (hx : readValue fuel (skipSpace after) = some (x, next))
    (hskip : skipSpace next = '\x7d' :: rest) :
    readMembers (fuel + 1) (printString name.toList ++ ':' :: after) =
      some ([(some name, x)], rest) := by
  rw [readMembers_colon, hx, Option.bind_some]
  dsimp only
  rw [hskip]
  rfl

/-- A member with others behind it. -/
theorem readMembers_more {fuel : Nat} {x : Json} {after next rest : List Char} (name : String)
    (hx : readValue fuel (skipSpace after) = some (x, next)) (hskip : skipSpace next = ',' :: rest) :
    readMembers (fuel + 1) (printString name.toList ++ ':' :: after) =
      (readMembers fuel (skipSpace rest)).map fun q => ((some name, x) :: q.1, q.2) := by
  rw [readMembers_colon, hx, Option.bind_some]
  dsimp only
  rw [hskip]
  rfl

/-- The value of a member stands behind a space. -/
theorem skipSpace_value {j : Json} (h : j.IsTextual) (indent : Nat) (cs : List Char) :
    skipSpace (' ' :: (print indent j ++ cs)) = print indent j ++ cs := by
  rw [skipSpace, List.dropWhile_cons_of_pos (by decide)]
  exact skipSpace_print h indent cs

mutual

/-- **A value is read back from its text**, whatever follows. -/
theorem readValue_print : ∀ (j : Json) (indent fuel : Nat) (rest : List Char), j.IsTextual →
    (print indent j).length ≤ fuel → readValue fuel (print indent j ++ rest) = some (j, rest)
  | j, indent, 0, rest, hj, hfuel => by
    obtain ⟨c, cs, hprint, -⟩ := exists_print_eq hj indent
    rw [hprint] at hfuel
    cases hfuel
  | null, indent, fuel + 1, rest, _, _ => by simp [print, readValue]
  | bool true, indent, fuel + 1, rest, _, _ => by simp [print, readValue]
  | bool false, indent, fuel + 1, rest, _, _ => by simp [print, readValue]
  | number literal, indent, fuel + 1, rest, hj, _ => hj.elim
  | string none, indent, fuel + 1, rest, hj, _ => by cases hj
  | string (some s), indent, fuel + 1, rest, _, _ => by
    simp [print, printString, readValue, readString_printed]
  | array [], indent, fuel + 1, rest, _, _ => by
    simp [print, readValue, skipSpace_cons (show isSpace ']' = false by decide)]
  | array (x :: xs), indent, fuel + 1, rest, hj, hfuel => by
    obtain ⟨hx, hxs⟩ := hj
    rw [print] at hfuel ⊢
    simp only [List.length_append, List.length_cons, List.cons_append, List.append_assoc,
      List.nil_append] at hfuel ⊢
    obtain ⟨fuel, rfl⟩ : ∃ n, fuel = n + 1 := ⟨fuel - 1, by omega⟩
    have hfirst := readValue_print x (indent + 1) fuel
      (printElements (indent + 1) xs ++ (newLine indent ++ ']' :: rest)) hx (by omega)
    obtain ⟨c, cs, hprint, hspace, hbracket⟩ := exists_print_eq hx (indent + 1)
    rw [hprint, List.cons_append] at hfirst ⊢
    rw [readValue_bracket _ ((skipSpace_newLine _ _).trans (skipSpace_cons hspace _)) hbracket,
      readElements_print xs (indent + 1) indent fuel x _ rest hxs (by omega) hfirst]
    rfl
  | object [], indent, fuel + 1, rest, _, _ => by
    simp [print, readValue, skipSpace_cons (show isSpace '\x7d' = false by decide)]
  | object ((none, x) :: ms), indent, fuel + 1, rest, hj, _ => by cases hj.1
  | object ((some name, x) :: ms), indent, fuel + 1, rest, hj, hfuel => by
    obtain ⟨-, hx, hms⟩ := hj
    rw [print] at hfuel ⊢
    simp only [List.length_append, List.length_cons, List.cons_append, List.append_assoc,
      List.nil_append, Option.getD_some] at hfuel ⊢
    obtain ⟨fuel, rfl⟩ : ∃ n, fuel = n + 1 := ⟨fuel - 1, by omega⟩
    have hfirst := readValue_print x (indent + 1) fuel
      (printMembers (indent + 1) ms ++ (newLine indent ++ '\x7d' :: rest)) hx (by omega)
    rw [← skipSpace_value hx] at hfirst
    have hmembers :=
      readMembers_print ms (indent + 1) indent fuel name x _ rest hms (by omega) hfirst
    have hquote : ∀ cs, skipSpace (newLine (indent + 1) ++ (printString name.toList ++ cs)) =
        '"' :: (name.toList.flatMap escapeChar ++ ['"'] ++ cs) := fun cs =>
      (skipSpace_newLine _ _).trans (skipSpace_cons (by decide) _)
    rw [readValue_brace _ (hquote _) (by decide)]
    exact congrArg (Option.map _) hmembers

/-- Elements are read back, once the first one is. -/
theorem readElements_print : ∀ (xs : List Json) (indent outer fuel : Nat) (x : Json)
    (cs rest : List Char), AreTextual xs → (printElements indent xs).length ≤ fuel →
    readValue fuel cs = some (x, printElements indent xs ++ (newLine outer ++ ']' :: rest)) →
    readElements (fuel + 1) cs = some (x :: xs, rest)
  | [], indent, outer, fuel, x, cs, rest, _, _, hx => by
    refine readElements_last hx ?_
    rw [printElements, List.nil_append, skipSpace_newLine]
    exact skipSpace_cons (by decide) _
  | y :: ys, indent, outer, fuel, x, cs, rest, hxs, hfuel, hx => by
    obtain ⟨hy, hys⟩ := hxs
    rw [printElements] at hfuel hx
    simp only [List.length_append, List.length_cons, List.cons_append, List.append_assoc] at hfuel hx
    obtain ⟨fuel, rfl⟩ : ∃ n, fuel = n + 1 := ⟨fuel - 1, by omega⟩
    have hnext := readValue_print y indent fuel
      (printElements indent ys ++ (newLine outer ++ ']' :: rest)) hy (by omega)
    rw [readElements_more hx (skipSpace_cons (by decide) _), skipSpace_newLine, skipSpace_print hy,
      readElements_print ys indent outer fuel y _ rest hys (by omega) hnext]
    rfl

/-- Members are read back, once the value of the first one is. -/
theorem readMembers_print : ∀ (ms : List (Option String × Json)) (indent outer fuel : Nat)
    (name : String) (x : Json) (after rest : List Char), MembersTextual ms →
    (printMembers indent ms).length ≤ fuel →
    readValue fuel (skipSpace after) =
      some (x, printMembers indent ms ++ (newLine outer ++ '\x7d' :: rest)) →
    readMembers (fuel + 1) (printString name.toList ++ ':' :: after) = some ((some name, x) :: ms, rest)
  | [], indent, outer, fuel, name, x, after, rest, _, _, hx => by
    refine readMembers_last name hx ?_
    rw [printMembers, List.nil_append, skipSpace_newLine]
    exact skipSpace_cons (by decide) _
  | (none, y) :: ms, indent, outer, fuel, name, x, after, rest, hms, _, _ => by cases hms.1
  | (some next, y) :: ms, indent, outer, fuel, name, x, after, rest, hms, hfuel, hx => by
    obtain ⟨-, hy, hms⟩ := hms
    rw [printMembers] at hfuel hx
    simp only [List.length_append, List.length_cons, List.cons_append, List.append_assoc,
      List.nil_append, Option.getD_some] at hfuel hx
    obtain ⟨fuel, rfl⟩ : ∃ n, fuel = n + 1 := ⟨fuel - 1, by omega⟩
    have hnext := readValue_print y indent fuel
      (printMembers indent ms ++ (newLine outer ++ '\x7d' :: rest)) hy (by omega)
    rw [← skipSpace_value hy] at hnext
    have hquote : ∀ cs, skipSpace (printString next.toList ++ cs) = printString next.toList ++ cs :=
      fun cs => skipSpace_cons (by decide) _
    rw [readMembers_more name hx (skipSpace_cons (by decide) _), skipSpace_newLine, hquote,
      readMembers_print ms indent outer fuel next y _ rest hms (by omega) hnext]
    rfl

end

/-- **A value is read back from its text**, with any white space behind it. -/
theorem read?_pretty_append {j : Json} (h : j.IsTextual) (blank : String)
    (hblank : skipSpace blank.toList = []) : read? (pretty j ++ blank) = some j := by
  have htext : (pretty j ++ blank).toList = print 0 j ++ blank.toList := by
    rw [String.toList_append, pretty, String.toList_ofList]
  have hvalue := readValue_print j 0 (2 * (print 0 j ++ blank.toList).length + 1) blank.toList h
    (by rw [List.length_append]; omega)
  rw [read?, htext, skipSpace_print h, hvalue]
  simp only [hblank, List.isEmpty_nil, if_true]

/-- **What is printed is read back.** -/
theorem read?_pretty {j : Json} (h : j.IsTextual) : read? (pretty j) = some j := by
  have hread := read?_pretty_append h "" rfl
  rwa [String.append_empty] at hread

end Stencil.Json
