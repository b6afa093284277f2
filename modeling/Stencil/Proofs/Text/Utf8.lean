/-
  Reading what was written in UTF-8.

  The bytes of a character are read as that character, whatever follows (`scalarsFrom_encode`); so the
  bytes of a text are read as the text (`toString?_ofString`, `lossy_ofString`).  Nothing else is read
  as that character (`exists_encode_of_scalarsFrom`), so that bytes which are a text are the bytes of
  it (`ofString_of_toString?`): the reader and the writer undo each other.  And a byte below `80`
  ends whatever was begun, so that bytes can be read apart where one stands (`scalars_append_cons`).
-/
import Stencil.Text.Bytes
import Stencil.Text.CharClass

namespace Stencil.Bytes

/-! ## One byte -/

/-- The first byte of a code point, by its value. -/
theorem lead_ofNat {n : Nat} (h : n < 256) : lead (UInt8.ofNat n) =
    if n < 0x80 then .whole (Char.ofNat n)
    else if n < 0xC2 then .stray
    else if n < 0xE0 then .begins { value := n - 0xC0, missing := 1 }
    else if n = 0xE0 then .begins { value := 0, missing := 2, low := 0xA0 }
    else if n = 0xED then .begins { value := 0xD, missing := 2, high := 0x9F }
    else if n < 0xF0 then .begins { value := n - 0xE0, missing := 2 }
    else if n = 0xF0 then .begins { value := 0, missing := 3, low := 0x90 }
    else if n < 0xF4 then .begins { value := n - 0xF0, missing := 3 }
    else if n = 0xF4 then .begins { value := 4, missing := 3, high := 0x8F }
    else .stray := by
  have hvalue : (UInt8.ofNat n).toNat = n := UInt8.toNat_ofNat_of_lt h
  simp only [lead, UInt8.lt_iff_toNat_lt, ← UInt8.toNat_inj, hvalue]
  rfl

/-- The first byte of three. -/
theorem lead_three {n : Nat} (hlow : 0xE0 ≤ n) (hhigh : n < 0xF0) :
    ∃ g, lead (UInt8.ofNat n) = .begins g ∧ g.value = n - 0xE0 ∧ g.missing = 2 ∧
      g.low.toNat = (if n = 0xE0 then 0xA0 else 0x80) ∧
      g.high.toNat = (if n = 0xED then 0x9F else 0xBF) := by
  rw [lead_ofNat (by omega), if_neg (by omega), if_neg (by omega), if_neg (by omega)]
  by_cases hfirst : n = 0xE0
  · exact ⟨_, if_pos hfirst, by simp [hfirst]⟩
  rw [if_neg hfirst]
  by_cases hlast : n = 0xED
  · exact ⟨_, if_pos hlast, by simp [hlast]⟩
  rw [if_neg hlast]
  exact ⟨_, if_pos hhigh, by simp [hfirst, hlast]⟩

/-- The first byte of four. -/
theorem lead_four {n : Nat} (hlow : 0xF0 ≤ n) (hhigh : n < 0xF5) :
    ∃ g, lead (UInt8.ofNat n) = .begins g ∧ g.value = n - 0xF0 ∧ g.missing = 3 ∧
      g.low.toNat = (if n = 0xF0 then 0x90 else 0x80) ∧
      g.high.toNat = (if n = 0xF4 then 0x8F else 0xBF) := by
  rw [lead_ofNat (by omega), if_neg (by omega), if_neg (by omega), if_neg (by omega),
    if_neg (by omega), if_neg (by omega), if_neg (by omega)]
  by_cases hfirst : n = 0xF0
  · exact ⟨_, if_pos hfirst, by simp [hfirst]⟩
  rw [if_neg hfirst]
  by_cases hlast : n = 0xF4
  · exact ⟨_, (if_neg (by omega)).trans (if_pos hlast), by simp [hlast]⟩
  exact ⟨_, if_pos (by omega), by simp [hfirst, hlast]⟩

/-- A further byte of a code point, in its range. -/
theorem scalarsFrom_in {b : UInt8} {g : Begun} (h : g.low ≤ b ∧ b ≤ g.high) (rest : Bytes) :
    scalarsFrom (some g) (b :: rest) =
      if g.missing ≤ 1 then some (Char.ofNat (g.value * 64 + (b.toNat - 0x80))) :: scalarsFrom none rest
      else scalarsFrom
        (some { value := g.value * 64 + (b.toNat - 0x80), missing := g.missing - 1 }) rest := by
  simp only [scalarsFrom, if_pos h]

/-- A byte out of range ends what was begun, and is read afresh. -/
theorem scalarsFrom_out {b : UInt8} {g : Begun} (h : ¬ (g.low ≤ b ∧ b ≤ g.high)) (rest : Bytes) :
    scalarsFrom (some g) (b :: rest) = none :: scalarsFrom none (b :: rest) := by
  simp only [scalarsFrom, if_neg h]

/-- The last byte of a code point. -/
theorem scalarsFrom_last {g : Begun} {n : Nat} (h : n < 256) (hlow : g.low.toNat ≤ n)
    (hhigh : n ≤ g.high.toNat) (hmissing : g.missing ≤ 1) (rest : Bytes) :
    scalarsFrom (some g) (UInt8.ofNat n :: rest) =
      some (Char.ofNat (g.value * 64 + (n - 0x80))) :: scalarsFrom none rest := by
  have hvalue : (UInt8.ofNat n).toNat = n := UInt8.toNat_ofNat_of_lt h
  rw [scalarsFrom_in, if_pos hmissing, hvalue]
  rw [UInt8.le_iff_toNat_le, UInt8.le_iff_toNat_le, hvalue]
  exact ⟨hlow, hhigh⟩

/-- A byte of a code point that is not the last. -/
theorem scalarsFrom_more {g : Begun} {n : Nat} (h : n < 256) (hlow : g.low.toNat ≤ n)
    (hhigh : n ≤ g.high.toNat) (hmissing : ¬ g.missing ≤ 1) (rest : Bytes) :
    scalarsFrom (some g) (UInt8.ofNat n :: rest) =
      scalarsFrom (some { value := g.value * 64 + (n - 0x80), missing := g.missing - 1 }) rest := by
  have hvalue : (UInt8.ofNat n).toNat = n := UInt8.toNat_ofNat_of_lt h
  rw [scalarsFrom_in, if_neg hmissing, hvalue]
  rw [UInt8.le_iff_toNat_le, UInt8.le_iff_toNat_le, hvalue]
  exact ⟨hlow, hhigh⟩

/-- A byte that is a character of its own is read at once. -/
theorem scalarsFrom_whole {b : UInt8} {c : Char} (h : lead b = .whole c) (rest : Bytes) :
    scalarsFrom none (b :: rest) = some c :: scalarsFrom none rest := by
  rw [scalarsFrom]
  simp only [h]

/-- A code point of several bytes begins with one that is no whole character. -/
theorem scalarsFrom_begin {b : UInt8} {g : Begun} (h : lead b = .begins g) (rest : Bytes) :
    scalarsFrom none (b :: rest) = scalarsFrom (some g) rest := by
  rw [scalarsFrom]
  simp only [h]

/-- A byte that begins nothing and belongs to nothing is shown as a piece of its own. -/
theorem scalarsFrom_stray {b : UInt8} (h : lead b = .stray) (rest : Bytes) :
    scalarsFrom none (b :: rest) = none :: scalarsFrom none rest := by
  rw [scalarsFrom]
  simp only [h]

/-! ## One character -/

/-- **The bytes of a character are read as the character.**  The cases are those of the number of
    bytes; the first bytes whose second one has a narrower range are cases of their own. -/
theorem scalarsFrom_encode (c : Char) (rest : Bytes) :
    scalarsFrom none (String.utf8EncodeChar c ++ rest) = some c :: scalarsFrom none rest := by
  have hvalid : c.val.toNat < 0xD800 ∨ (0xDFFF < c.val.toNat ∧ c.val.toNat < 0x110000) := c.valid
  have hchar : ∀ n, n = c.val.toNat → Char.ofNat n = c := by
    rintro n rfl
    exact Char.ofNat_toNat c
  rw [String.utf8EncodeChar]
  generalize c.val.toNat = v at hvalid hchar
  split
  · have hwhole : lead (UInt8.ofNat v) = .whole (Char.ofNat v) := by
      rw [lead_ofNat (by omega), if_pos (by omega)]
    rw [List.singleton_append, scalarsFrom_whole hwhole, hchar v rfl]
  split
  · have hbegin : lead (UInt8.ofNat (v / 64 % 32 + 192)) =
        .begins { value := v / 64 % 32 + 192 - 0xC0, missing := 1 } := by
      rw [lead_ofNat (by omega), if_neg (by omega), if_neg (by omega), if_pos (by omega)]
    rw [List.cons_append, List.singleton_append, scalarsFrom_begin hbegin,
      scalarsFrom_last (by omega) (by simp) (by simp; omega) (Nat.le_refl 1)]
    rw [hchar _ (by simp only; omega)]
  split
  · obtain ⟨g, hbegin, hvalue, hmissing, hlow, hhigh⟩ :=
      lead_three (n := v / 4096 % 16 + 224) (by omega) (by omega)
    have hlow : g.low.toNat ≤ v / 64 % 64 + 128 := by rw [hlow]; split <;> omega
    have hhigh : v / 64 % 64 + 128 ≤ g.high.toNat := by rw [hhigh]; split <;> omega
    rw [List.cons_append, List.cons_append, List.singleton_append, scalarsFrom_begin hbegin,
      scalarsFrom_more (by omega) hlow hhigh (by omega), hvalue, hmissing,
      scalarsFrom_last (by omega) (by simp) (by simp; omega) (Nat.le_refl 1)]
    rw [hchar _ (by simp only; omega)]
  · obtain ⟨g, hbegin, hvalue, hmissing, hlow, hhigh⟩ :=
      lead_four (n := v / 262144 % 8 + 240) (by omega) (by omega)
    have hlow : g.low.toNat ≤ v / 4096 % 64 + 128 := by rw [hlow]; split <;> omega
    have hhigh : v / 4096 % 64 + 128 ≤ g.high.toNat := by rw [hhigh]; split <;> omega
    rw [List.cons_append, List.cons_append, List.cons_append, List.singleton_append,
      scalarsFrom_begin hbegin, scalarsFrom_more (by omega) hlow hhigh (by omega), hvalue, hmissing,
      scalarsFrom_more (by omega) (by simp) (by simp; omega) (by simp),
      scalarsFrom_last (by omega) (by simp) (by simp; omega) (Nat.le_refl 1)]
    rw [hchar _ (by simp only; omega)]

/-! ## The character that was written -/

/-- The code of a character made of it, in the form in which the encoder reads it. -/
theorem val_ofNat {v : Nat} (h : v < 0xD800 ∨ 0xDFFF < v ∧ v < 0x110000) :
    (Char.ofNat v).val.toNat = v :=
  toNat_ofNat h

/-- Two bytes that are well formed are the encoding of the character they are read as. -/
theorem encode_two {n m : Nat} (hn : 0xC2 ≤ n ∧ n < 0xE0) (hm : 0x80 ≤ m ∧ m < 0xC0) :
    String.utf8EncodeChar (Char.ofNat ((n - 0xC0) * 64 + (m - 0x80))) =
      [UInt8.ofNat n, UInt8.ofNat m] := by
  rw [String.utf8EncodeChar, val_ofNat (by omega), if_neg (by omega), if_pos (by omega)]
  simp only [List.cons.injEq, and_true]
  exact ⟨congrArg UInt8.ofNat (by omega), congrArg UInt8.ofNat (by omega)⟩

/-- Overlong forms and surrogates are ruled out by the range of the second byte. -/
theorem encode_three {n m k : Nat} (hn : 0xE0 ≤ n ∧ n < 0xF0) (hm : 0x80 ≤ m ∧ m < 0xC0)
    (hk : 0x80 ≤ k ∧ k < 0xC0) (hfirst : n = 0xE0 → 0xA0 ≤ m) (hlast : n = 0xED → m < 0xA0) :
    String.utf8EncodeChar (Char.ofNat (((n - 0xE0) * 64 + (m - 0x80)) * 64 + (k - 0x80))) =
      [UInt8.ofNat n, UInt8.ofNat m, UInt8.ofNat k] := by
  rw [String.utf8EncodeChar, val_ofNat (by omega), if_neg (by omega), if_neg (by omega),
    if_pos (by omega)]
  simp only [List.cons.injEq, and_true]
  exact ⟨congrArg UInt8.ofNat (by omega), congrArg UInt8.ofNat (by omega),
    congrArg UInt8.ofNat (by omega)⟩

/-- So are four; the second one keeps the code within the range of codes and above those of three bytes. -/
theorem encode_four {n m k l : Nat} (hn : 0xF0 ≤ n ∧ n < 0xF5) (hm : 0x80 ≤ m ∧ m < 0xC0)
    (hk : 0x80 ≤ k ∧ k < 0xC0) (hl : 0x80 ≤ l ∧ l < 0xC0) (hfirst : n = 0xF0 → 0x90 ≤ m)
    (hlast : n = 0xF4 → m < 0x90) :
    String.utf8EncodeChar (Char.ofNat
      ((((n - 0xF0) * 64 + (m - 0x80)) * 64 + (k - 0x80)) * 64 + (l - 0x80))) =
      [UInt8.ofNat n, UInt8.ofNat m, UInt8.ofNat k, UInt8.ofNat l] := by
  rw [String.utf8EncodeChar, val_ofNat (by omega), if_neg (by omega), if_neg (by omega),
    if_neg (by omega)]
  simp only [List.cons.injEq, and_true]
  exact ⟨congrArg UInt8.ofNat (by omega), congrArg UInt8.ofNat (by omega),
    congrArg UInt8.ofNat (by omega), congrArg UInt8.ofNat (by omega)⟩

/-- What was begun goes on with a byte in its range. -/
theorem exists_of_scalarsFrom_some {g : Begun} {bs : Bytes} {cs : List Char}
    (h : scalarsFrom (some g) bs = cs.map some) :
    ∃ m rest, bs = UInt8.ofNat m :: rest ∧ (g.low.toNat ≤ m ∧ m ≤ g.high.toNat) ∧
      (if g.missing ≤ 1 then some (Char.ofNat (g.value * 64 + (m - 0x80))) :: scalarsFrom none rest
        else scalarsFrom
          (some { value := g.value * 64 + (m - 0x80), missing := g.missing - 1 }) rest) =
        cs.map some := by
  cases bs with
  | nil => cases cs <;> simp [scalarsFrom] at h
  | cons b rest =>
    by_cases hin : g.low ≤ b ∧ b ≤ g.high
    · rw [scalarsFrom_in hin] at h
      refine ⟨b.toNat, rest, by rw [UInt8.ofNat_toNat], ?_, h⟩
      exact ⟨UInt8.le_iff_toNat_le.mp hin.1, UInt8.le_iff_toNat_le.mp hin.2⟩
    · rw [scalarsFrom_out hin] at h
      cases cs <;> simp at h

/-- Where characters were read, the first one and the others were. -/
theorem exists_cons_of_map_some {c : Char} {rest : List (Option Char)} {cs : List Char}
    (h : some c :: rest = cs.map some) : ∃ cs', cs = c :: cs' ∧ rest = cs'.map some := by
  obtain ⟨c', cs', rfl, hc, rfl⟩ := List.map_eq_cons_iff.mp h.symm
  obtain rfl := Option.some.inj hc
  exact ⟨cs', rfl, rfl⟩

/-- **What is read as characters begins with the bytes of the first one.**  The cases are those of
    the first byte. -/
theorem exists_encode_of_scalarsFrom {b : UInt8} {bs : Bytes} {cs : List Char}
    (h : scalarsFrom none (b :: bs) = cs.map some) :
    ∃ c rest cs', b :: bs = String.utf8EncodeChar c ++ rest ∧ cs = c :: cs' ∧
      scalarsFrom none rest = cs'.map some := by
  obtain ⟨n, hn, rfl⟩ : ∃ n < 256, b = UInt8.ofNat n := ⟨b.toNat, b.toNat_lt, by simp⟩
  by_cases hone : n < 0x80
  · have hwhole : lead (UInt8.ofNat n) = .whole (Char.ofNat n) := by rw [lead_ofNat hn, if_pos hone]
    rw [scalarsFrom_whole hwhole] at h
    obtain ⟨cs', rfl, hrest⟩ := exists_cons_of_map_some h
    refine ⟨_, bs, cs', ?_, rfl, hrest⟩
    rw [String.utf8EncodeChar, val_ofNat (by omega), if_pos (by omega)]
    rfl
  by_cases htwo : 0xC2 ≤ n ∧ n < 0xE0
  · have hbegin : lead (UInt8.ofNat n) = .begins { value := n - 0xC0, missing := 1 } := by
      rw [lead_ofNat hn, if_neg hone, if_neg (by omega), if_pos htwo.2]
    rw [scalarsFrom_begin hbegin] at h
    obtain ⟨m, rest, rfl, hm, hnext⟩ := exists_of_scalarsFrom_some h
    simp only [Nat.le_refl, if_true, UInt8.reduceToNat] at hm hnext
    obtain ⟨cs', rfl, hrest⟩ := exists_cons_of_map_some hnext
    exact ⟨_, rest, cs', by rw [encode_two htwo (by omega)]; rfl, rfl, hrest⟩
  by_cases hthree : 0xE0 ≤ n ∧ n < 0xF0
  · obtain ⟨g, hbegin, hvalue, hmissing, hlow, hhigh⟩ := lead_three hthree.1 hthree.2
    rw [scalarsFrom_begin hbegin] at h
    obtain ⟨m, rest, rfl, hm, hnext⟩ := exists_of_scalarsFrom_some h
    rw [if_neg (by omega), hvalue, hmissing] at hnext
    obtain ⟨k, rest, rfl, hk, hlast⟩ := exists_of_scalarsFrom_some hnext
    simp only [Nat.le_refl, if_true, UInt8.reduceToNat, Nat.reduceSub] at hk hlast
    obtain ⟨cs', rfl, hrest⟩ := exists_cons_of_map_some hlast
    rw [hlow, hhigh] at hm
    refine ⟨_, rest, cs', ?_, rfl, hrest⟩
    rw [encode_three hthree (by split at hm <;> split at hm <;> omega) (by omega)
      (fun hn => by rw [if_pos hn] at hm; exact hm.1)
      (fun hn => by rw [if_pos hn] at hm; omega)]
    rfl
  by_cases hfour : 0xF0 ≤ n ∧ n < 0xF5
  · obtain ⟨g, hbegin, hvalue, hmissing, hlow, hhigh⟩ := lead_four hfour.1 hfour.2
    rw [scalarsFrom_begin hbegin] at h
    obtain ⟨m, rest, rfl, hm, hnext⟩ := exists_of_scalarsFrom_some h
    rw [if_neg (by omega), hvalue, hmissing] at hnext
    obtain ⟨k, rest, rfl, hk, hnext⟩ := exists_of_scalarsFrom_some hnext
    rw [if_neg (by simp)] at hnext
    obtain ⟨l, rest, rfl, hl, hlast⟩ := exists_of_scalarsFrom_some hnext
    simp only [Nat.le_refl, if_true, UInt8.reduceToNat, Nat.reduceSub] at hk hl hlast
    obtain ⟨cs', rfl, hrest⟩ := exists_cons_of_map_some hlast
    rw [hlow, hhigh] at hm
    refine ⟨_, rest, cs', ?_, rfl, hrest⟩
    rw [encode_four hfour (by split at hm <;> split at hm <;> omega) (by omega) (by omega)
      (fun hn => by rw [if_pos hn] at hm; exact hm.1)
      (fun hn => by rw [if_pos hn] at hm; omega)]
    rfl
  -- what is left is a byte that begins nothing
  have hstray : lead (UInt8.ofNat n) = .stray := by
    rw [lead_ofNat hn, if_neg hone]
    by_cases hlow : n < 0xC2
    · rw [if_pos hlow]
    rw [if_neg hlow, if_neg (by omega), if_neg (by omega), if_neg (by omega), if_neg (by omega),
      if_neg (by omega), if_neg (by omega), if_neg (by omega)]
  rw [scalarsFrom_stray hstray] at h
  cases cs <;> simp at h

/-! ## Texts -/

/-- The bytes of characters are read as these characters, one by one. -/
theorem scalars_ofChars (cs : List Char) : scalars (ofChars cs) = cs.map some := by
  induction cs with
  | nil => rfl
  | cons c cs ih =>
    rw [scalars] at ih ⊢
    rw [ofChars_cons, scalarsFrom_encode, ih, List.map_cons]

theorem mapM_id_map_some {α : Type} (xs : List α) : (xs.map some).mapM id = some xs := by
  rw [List.mapM_map]
  exact List.mapM_pure.trans (congrArg some (List.map_id xs))

/-- **What was written as bytes is read back.** -/
@[simp] theorem toString?_ofString (s : String) : toString? (ofString s) = some s := by
  rw [toString?, ofString, scalars_ofChars, mapM_id_map_some, Option.map_some, String.ofList_toList]

/-- Nothing of a text is lost. -/
@[simp] theorem lossy_ofString (s : String) : lossy (ofString s) = s := by
  rw [lossy, ofString, scalars_ofChars, List.map_map]
  have hsame : (fun c : Option Char => c.getD '\uFFFD') ∘ some = id := rfl
  rw [hsame, List.map_id, String.ofList_toList]

/-- **Bytes that are read as characters are the bytes of these.**  By induction on the number of
    characters: every one takes at least a byte. -/
theorem ofChars_of_scalars {bs : Bytes} {cs : List Char} (h : scalars bs = cs.map some) :
    ofChars cs = bs := by
  induction cs generalizing bs with
  | nil =>
    cases bs with
    | nil => rfl
    | cons b bs =>
      obtain ⟨c, rest, cs', -, hcs, -⟩ := exists_encode_of_scalarsFrom h
      cases hcs
  | cons c cs ih =>
    cases bs with
    | nil => cases h
    | cons b bs =>
      obtain ⟨c', rest, cs', hbytes, hcs, hrest⟩ := exists_encode_of_scalarsFrom h
      obtain ⟨rfl, rfl⟩ := List.cons.inj hcs
      rw [ofChars_cons, ih hrest, hbytes]

theorem eq_map_some_of_mapM_id {α : Type} {xs : List (Option α)} {ys : List α}
    (h : xs.mapM id = some ys) : xs = ys.map some := by
  induction xs generalizing ys with
  | nil => simp at h; simp [← h]
  | cons x xs ih =>
    simp only [List.mapM_cons, id, Option.bind_eq_bind, Option.bind_eq_some_iff, Option.pure_def,
      Option.some.injEq] at h
    obtain ⟨y, rfl, ys', hys, rfl⟩ := h
    rw [ih hys, List.map_cons]

/-- **Bytes that are a text are the bytes of it.** -/
theorem ofString_of_toString? {bs : Bytes} {s : String} (h : toString? bs = some s) :
    ofString s = bs := by
  obtain ⟨cs, hcs, rfl⟩ := Option.map_eq_some_iff.mp h
  rw [ofString, String.toList_ofList]
  exact ofChars_of_scalars (eq_map_some_of_mapM_id hcs)

/-! ## Reading apart -/

/-- A code point begun cannot end with a byte below `80`. -/
def Begun.Closed : Option Begun → Prop
  | none => True
  | some g => 0x80 ≤ g.low.toNat

theorem Begun.closed_none : Begun.Closed none := trivial

theorem closed_of_lead {b : UInt8} {g : Begun} (h : lead b = .begins g) : Begun.Closed (some g) := by
  unfold lead at h
  -- every range starts at `80` or above
  repeat' split at h
  all_goals simp only [Lead.begins.injEq, reduceCtorEq] at h
  all_goals subst h; simp [Begun.Closed]

/-- **Bytes are read apart at a byte below `80`.**  By induction on those before it, for any state in
    which they are read. -/
theorem scalarsFrom_append_cons {b : UInt8} (hb : b.toNat < 0x80) (after : Bytes)
    {state : Option Begun} (hclosed : Begun.Closed state) (before : Bytes) :
    scalarsFrom state (before ++ b :: after) =
      scalarsFrom state before ++ some (Char.ofNat b.toNat) :: scalarsFrom none after := by
  have hwhole : lead b = .whole (Char.ofNat b.toNat) := by
    rw [lead, if_pos (by rw [UInt8.lt_iff_toNat_lt]; exact hb)]
  induction before generalizing state with
  | nil =>
    rw [List.nil_append]
    cases state with
    | none =>
      rw [scalarsFrom_whole hwhole]
      rfl
    | some g =>
      have hout : ¬ (g.low ≤ b ∧ b ≤ g.high) := by
        rw [UInt8.le_iff_toNat_le]
        intro h
        have hlow : 0x80 ≤ g.low.toNat := hclosed
        omega
      rw [scalarsFrom_out hout, scalarsFrom_whole hwhole]
      rfl
  | cons x before ih =>
    rw [List.cons_append]
    have hfresh : scalarsFrom none (x :: (before ++ b :: after)) =
        scalarsFrom none (x :: before) ++
          some (Char.ofNat b.toNat) :: scalarsFrom none after := by
      cases hlead : lead x with
      | whole c =>
        rw [scalarsFrom_whole hlead, scalarsFrom_whole hlead, ih Begun.closed_none, List.cons_append]
      | begins g =>
        rw [scalarsFrom_begin hlead, scalarsFrom_begin hlead, ih (closed_of_lead hlead)]
      | stray =>
        rw [scalarsFrom_stray hlead, scalarsFrom_stray hlead, ih Begun.closed_none, List.cons_append]
    cases state with
    | none => exact hfresh
    | some g =>
      by_cases hrange : g.low ≤ x ∧ x ≤ g.high
      · rw [scalarsFrom_in hrange, scalarsFrom_in hrange]
        split
        · rw [ih Begun.closed_none, List.cons_append]
        · exact ih (Nat.le_refl 0x80)
      · rw [scalarsFrom_out hrange, scalarsFrom_out hrange, hfresh, List.cons_append]

/-- **Bytes can be read apart at any ASCII byte**: it ends whatever was begun before it. -/
theorem scalars_append_cons {b : UInt8} (hb : b.toNat < 0x80) (before after : Bytes) :
    scalars (before ++ b :: after) = scalars before ++ some (Char.ofNat b.toNat) :: scalars after :=
  scalarsFrom_append_cons hb after Begun.closed_none before

/-- The text of a path is read segment by segment. -/
theorem ofString_lossy_append_slash (before after : Bytes) :
    ofString (lossy (before ++ slash :: after)) =
      ofString (lossy before) ++ slash :: ofString (lossy after) := by
  simp only [lossy, ofString, scalars_append_cons (show slash.toNat < 0x80 by decide),
    List.map_append, List.map_cons, String.toList_ofList, ofChars_append, ofChars_cons]
  rfl

end Stencil.Bytes
