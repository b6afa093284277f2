/-
  Substitution is a plain scan.

  `substituteBytes` jumps from one opening delimiter to the next and, where no token starts there,
  goes back to the byte behind the first one of the delimiter.  This file relates the jumps to a
  reading that looks at every position in turn.

  1. **Reading.** `Scan names opening closing text pieces` reads a text from the left.  At each
     position either a token of a declared name starts, the longest one is a piece, and the reading
     goes on behind it; or no token starts, the byte is a piece, and the reading goes on behind the
     byte.  The values of the names play no part in it.
  2. **The jump.** `cut?` passes over positions at which the opening delimiter does not start
     (`cut?_induction`), so all the bytes before the cut are kept (`scan_of_cut?_some`,
     `scan_of_cut?_none`).
  3. **The choice.** `longest?` is the longest fit among all names (`isLongest_longest?`).  Two
     names of one length that fit at one place have the same bytes, so it does not matter which is
     met first (`Scan.unique`).
  4. **The loop.** Every round consumes a byte, so by induction on the fuel the loop writes the
     pieces of the scan (`substituteFrom_scan`).
-/
import Mathlib.Data.List.Basic
import Stencil.Token

namespace Stencil.Token

/-! ## The scan -/

/-- A piece of a text. -/
inductive Piece where
  | kept (b : UInt8)
  | token (name : String)

/-- The bytes of the text that a piece stands for. -/
def Piece.read (opening closing : Bytes) : Piece → Bytes
  | kept b => [b]
  | token name => opening ++ Bytes.ofString name ++ closing

/-- The bytes that are written for a piece. -/
def Piece.written (values : Values) : Piece → Bytes
  | kept b => [b]
  | token name => Bytes.ofString ((values.get? name).getD "")

/-- Does a token of this name start the text? -/
def StartsToken (opening closing text : Bytes) (name : String) : Prop :=
  opening ++ Bytes.ofString name ++ closing <+: text

/-- The pieces of a text that is read position by position. -/
inductive Scan (names : List String) (opening closing : Bytes) : Bytes → List Piece → Prop where
  | done : Scan names opening closing [] []
  /-- The longest token that starts here is taken, and the reading goes on behind it. -/
  | token {name : String} {rest : Bytes} {pieces : List Piece} (hname : name ∈ names)
      (hlongest : ∀ other ∈ names,
        StartsToken opening closing (opening ++ Bytes.ofString name ++ closing ++ rest) other →
        (Bytes.ofString other).length ≤ (Bytes.ofString name).length)
      (hrest : Scan names opening closing rest pieces) :
      Scan names opening closing (opening ++ Bytes.ofString name ++ closing ++ rest)
        (.token name :: pieces)
  /-- No token starts here, and the byte is kept. -/
  | kept {b : UInt8} {rest : Bytes} {pieces : List Piece}
      (hnone : ∀ name ∈ names, ¬ StartsToken opening closing (b :: rest) name)
      (hrest : Scan names opening closing rest pieces) :
      Scan names opening closing (b :: rest) (.kept b :: pieces)

variable {names : List String} {opening closing : Bytes}

/-- The pieces are the text, cut up. -/
theorem Scan.flatMap_read {text : Bytes} {pieces : List Piece}
    (h : Scan names opening closing text pieces) :
    pieces.flatMap (Piece.read opening closing) = text := by
  induction h with
  | done => rfl
  | token _ _ _ ih => rw [List.flatMap_cons, ih]; rfl
  | kept _ _ ih => rw [List.flatMap_cons, ih]; rfl

/-- The order of the names does not matter to the scan. -/
theorem Scan.of_perm {names' : List String} {text : Bytes} {pieces : List Piece}
    (hperm : names.Perm names') (h : Scan names opening closing text pieces) :
    Scan names' opening closing text pieces := by
  induction h with
  | done => exact .done
  | token hname hlongest _ ih =>
    exact .token (hperm.mem_iff.mp hname) (fun other ho => hlongest other (hperm.mem_iff.mpr ho)) ih
  | kept hnone _ ih => exact .kept (fun name hname => hnone name (hperm.mem_iff.mpr hname)) ih

/-- Two names of one length that start a token at the same place are the same name. -/
theorem eq_of_startsToken {text : Bytes} {name other : String}
    (hname : StartsToken opening closing text name) (hother : StartsToken opening closing text other)
    (hlength : (Bytes.ofString name).length = (Bytes.ofString other).length) : name = other := by
  obtain ⟨rest, hrest⟩ := hname
  obtain ⟨rest', hrest'⟩ := hother
  rw [← hrest'] at hrest
  simp only [List.append_assoc, List.append_cancel_left_eq] at hrest
  exact Bytes.ofString_injective (List.append_inj_left hrest hlength)

/-- **A text is read in one way only.** -/
theorem Scan.unique (hopening : opening ≠ []) {text : Bytes} {pieces pieces' : List Piece}
    (h : Scan names opening closing text pieces) (h' : Scan names opening closing text pieces') :
    pieces = pieces' := by
  induction h generalizing pieces' with
  | done =>
    generalize htext : ([] : Bytes) = text at h'
    cases h' with
    | done => rfl
    | token => simp [hopening] at htext
    | kept => simp at htext
  | @token name rest pieces hname hlongest _ ih =>
    generalize htext : opening ++ Bytes.ofString name ++ closing ++ rest = text at h'
    cases h' with
    | done => simp [hopening] at htext
    | @token other rest' pieces' hother hlongest' hrest' =>
      have hstarts :
          StartsToken opening closing (opening ++ Bytes.ofString name ++ closing ++ rest) name :=
        List.prefix_append _ _
      have hstarts' :
          StartsToken opening closing (opening ++ Bytes.ofString name ++ closing ++ rest) other :=
        htext ▸ List.prefix_append _ _
      -- each of the two is the longest, so they are of one length
      have hle := hlongest other hother hstarts'
      have hge := hlongest' name hname (htext ▸ hstarts)
      obtain rfl := eq_of_startsToken hstarts hstarts' (by omega)
      obtain rfl := List.append_cancel_left htext
      rw [ih hrest']
    | kept hnone =>
      exact absurd (htext ▸ List.prefix_append _ _) (hnone name hname)
  | @kept b rest pieces hnone _ ih =>
    generalize htext : b :: rest = text at h'
    cases h' with
    | done => simp at htext
    | @token other rest' pieces' hother =>
      exact absurd (htext ▸ List.prefix_append _ _) (hnone other hother)
    | kept _ hrest' =>
      obtain ⟨rfl, rfl⟩ := List.cons.inj htext
      rw [ih hrest']

/-- Where the opening delimiter does not start, no token does. -/
theorem not_startsToken_of_not_prefix {text : Bytes} (h : ¬ opening <+: text) (name : String) :
    ¬ StartsToken opening closing text name := by
  intro hstarts
  refine h (List.IsPrefix.trans ?_ hstarts)
  rw [List.append_assoc]
  exact List.prefix_append _ _

/-- Where the opening delimiter does not occur, all of the text is kept. -/
theorem scan_of_absent {text : Bytes} (h : ¬ opening <:+: text) :
    Scan names opening closing text (text.map .kept) := by
  induction text with
  | nil => exact .done
  | cons b text ih =>
    exact .kept (fun name _ => not_startsToken_of_not_prefix (fun hp => h hp.isInfix) name)
      (ih fun hin => h (List.infix_cons hin))

/-! ## The jump to the next opening delimiter -/

/-- Bytes that nothing is left of behind a beginning do not have it. -/
theorem not_prefix_of_dropStart? {start text : Bytes} (h : Bytes.dropStart? start text = none) :
    ¬ start <+: text := by
  rintro ⟨rest, hrest⟩
  rw [Bytes.dropStart?, List.isPrefixOf?_eq_some_iff_append_eq.mpr hrest] at h
  cases h

/-- Where the jump finds no delimiter, there is none. -/
theorem not_infix_of_cut?_none {part text : Bytes} (h : cut? part text = none) : ¬ part <:+: text := by
  induction text with
  | nil =>
    rw [List.infix_nil]
    rintro rfl
    cases h
  | cons b bs ih =>
    rw [cut?] at h
    split at h
    · cases h
    · next hdrop =>
      rw [List.infix_cons_iff, not_or]
      exact ⟨not_prefix_of_dropStart? hdrop, ih (Option.map_eq_none_iff.mp h)⟩

/-- What holds where the delimiter starts, and still holds with a byte more before it at which the
    delimiter does not start, holds of every cut.  By induction on the text, as `cut?` reads it. -/
theorem cut?_induction {part text before after : Bytes} {motive : Bytes → Bytes → Prop}
    (found : motive (part ++ after) [])
    (kept : ∀ b bs before, ¬ part <+: b :: bs → motive bs before → motive (b :: bs) (b :: before))
    (h : cut? part text = some (before, after)) : motive text before := by
  induction text generalizing before with
  | nil =>
    rw [cut?] at h
    split at h
    · next hempty =>
      obtain rfl := List.isEmpty_iff.mp hempty
      cases h
      exact found
    · cases h
  | cons b bs ih =>
    rw [cut?] at h
    split at h
    · next hdrop =>
      cases h
      exact List.isPrefixOf?_eq_some_iff_append_eq.mp hdrop ▸ found
    · next hdrop =>
      obtain ⟨⟨before', after'⟩, hcut, heq⟩ := Option.map_eq_some_iff.mp h
      cases heq
      exact kept b bs before' (not_prefix_of_dropStart? hdrop) (ih hcut)

/-- What is cut is the text. -/
theorem append_of_cut?_some {part text before after : Bytes}
    (h : cut? part text = some (before, after)) : text = before ++ (part ++ after) := by
  refine cut?_induction (motive := fun text before => text = before ++ (part ++ after)) ?_ ?_ h
  · rfl
  · intro b bs before _ htext
    rw [htext, List.cons_append]

/-- Where the jump finds no delimiter, the plain scan keeps every byte. -/
theorem scan_of_cut?_none {text : Bytes} (h : cut? opening text = none) :
    Scan names opening closing text (text.map .kept) :=
  scan_of_absent (not_infix_of_cut?_none h)

/-- The bytes before the cut are kept, whatever is read behind it. -/
theorem scan_of_cut?_some {text before after : Bytes} {pieces : List Piece}
    (h : cut? opening text = some (before, after))
    (hscan : Scan names opening closing (opening ++ after) pieces) :
    Scan names opening closing text (before.map .kept ++ pieces) :=
  cut?_induction (motive := fun text before =>
      Scan names opening closing text (before.map .kept ++ pieces)) hscan
    (fun _ _ _ hnone hrest => .kept (fun name _ => not_startsToken_of_not_prefix hnone name) hrest) h

/-! ## The choice of the longest name -/

/-- A name fits if it stands there with the closing delimiter behind it. -/
theorem fit?_eq_some_iff {after : Bytes} {entry : String × String} {f : Fit} :
    fit? closing after entry = some f ↔
      after = Bytes.ofString entry.1 ++ closing ++ f.rest ∧
        f.size = (Bytes.ofString entry.1).length ∧ f.value = Bytes.ofString entry.2 := by
  obtain ⟨size, value, rest⟩ := f
  simp only [fit?, Option.map_eq_some_iff, List.isPrefixOf?_eq_some_iff_append_eq, Fit.mk.injEq]
  constructor
  · rintro ⟨rest', hafter, rfl, rfl, rfl⟩
    exact ⟨hafter.symm, rfl, rfl⟩
  · rintro ⟨hafter, rfl, rfl⟩
    exact ⟨rest, hafter.symm, rfl, rfl, rfl⟩

/-- The longest of some fits, if there is one at all. -/
def IsLongest (fits : List (Option Fit)) : Option Fit → Prop
  | none => ∀ x ∈ fits, x = none
  | some f => some f ∈ fits ∧ ∀ g, some g ∈ fits → g.size ≤ f.size

theorem IsLongest.of_perm {fits fits' : List (Option Fit)} {best : Option Fit}
    (hperm : fits.Perm fits') (h : IsLongest fits best) : IsLongest fits' best := by
  cases best with
  | none => exact fun x hx => h x (hperm.mem_iff.mpr hx)
  | some f => exact ⟨hperm.mem_iff.mp h.1, fun g hg => h.2 g (hperm.mem_iff.mpr hg)⟩

theorem isLongest_cons_none_iff {fits : List (Option Fit)} {best : Option Fit} :
    IsLongest (none :: fits) best ↔ IsLongest fits best := by
  cases best with
  | none => simp [IsLongest]
  | some f => simp [IsLongest]

/-- A fit that is no longer than one of the others does not matter. -/
theorem IsLongest.cons_of_le {fits : List (Option Fit)} {best : Option Fit} {f g : Fit}
    (h : IsLongest fits best) (hf : some f ∈ fits) (hle : g.size ≤ f.size) :
    IsLongest (some g :: fits) best := by
  cases best with
  | none => exact absurd (h (some f) hf) (Option.some_ne_none f)
  | some m =>
    refine ⟨List.mem_cons_of_mem _ h.1, fun k hk => ?_⟩
    rcases List.mem_cons.mp hk with heq | hk
    · rw [Option.some.inj heq]
      exact Nat.le_trans hle (h.2 f hf)
    · exact h.2 k hk

/-- Of two fits only the longer one need be kept. -/
theorem isLongest_cons_longer {a b best : Option Fit} {fits : List (Option Fit)}
    (h : IsLongest (longer a b :: fits) best) : IsLongest (a :: b :: fits) best := by
  cases a with
  | none => exact isLongest_cons_none_iff.mpr h
  | some f =>
    cases b with
    | none => exact (isLongest_cons_none_iff.mpr h).of_perm (.swap _ _ _)
    | some g =>
      rw [longer] at h
      by_cases hsize : g.size < f.size
      · rw [if_pos hsize] at h
        exact (h.cons_of_le (List.mem_cons_self ..) (Nat.le_of_lt hsize)).of_perm (.swap _ _ _)
      · rw [if_neg hsize] at h
        exact h.cons_of_le (List.mem_cons_self ..) (Nat.le_of_not_lt hsize)

theorem isLongest_foldl_longer (fits : List (Option Fit)) : ∀ best : Option Fit,
    IsLongest (best :: fits) (fits.foldl longer best) := by
  induction fits with
  | nil =>
    intro best
    cases best with
    | none => simp [IsLongest]
    | some f => simp [IsLongest]
  | cons x fits ih =>
    intro best
    exact isLongest_cons_longer (ih (longer best x))

/-- Going over the names one by one finds the longest that fits. -/
theorem isLongest_longest? (closing after : Bytes) (entries : List (String × String)) :
    IsLongest (entries.map (fit? closing after)) (longest? closing after entries) := by
  have hfold := isLongest_foldl_longer (entries.map (fit? closing after)) none
  rw [List.foldl_map] at hfold
  exact isLongest_cons_none_iff.mp hfold

/-- Behind an opening delimiter, a token of a name starts where the name fits. -/
theorem startsToken_iff_fit? {after : Bytes} {entry : String × String} :
    StartsToken opening closing (opening ++ after) entry.1 ↔
      ∃ f, fit? closing after entry = some f := by
  simp only [StartsToken, List.append_assoc, List.prefix_append_right_inj, fit?_eq_some_iff]
  constructor
  · rintro ⟨rest, hrest⟩
    exact ⟨⟨(Bytes.ofString entry.1).length, Bytes.ofString entry.2, rest⟩, by simp [← hrest]⟩
  · rintro ⟨f, hafter, -⟩
    exact ⟨f.rest, by simp [hafter]⟩

theorem length_rest_le_of_longest? {after : Bytes} {entries : List (String × String)} {f : Fit}
    (h : longest? closing after entries = some f) : f.rest.length ≤ after.length := by
  have hlongest := isLongest_longest? closing after entries
  rw [h] at hlongest
  obtain ⟨entry, -, hf⟩ := List.mem_map.mp hlongest.1
  rw [(fit?_eq_some_iff.mp hf).1, List.length_append]
  exact Nat.le_add_left _ _

/-- The longest fit is the token that the scan takes. -/
theorem scan_of_longest?_some (opening : Bytes) {values : Values} {after : Bytes} {f : Fit}
    {pieces : List Piece}
    (h : longest? closing after values.entries = some f)
    (hscan : Scan values.names opening closing f.rest pieces) :
    ∃ name, Scan values.names opening closing (opening ++ after) (.token name :: pieces) ∧
      Piece.written values (.token name) = f.value := by
  have hlongest := isLongest_longest? closing after values.entries
  rw [h] at hlongest
  obtain ⟨hmem, hmax⟩ := hlongest
  obtain ⟨⟨name, value⟩, hentry, hf⟩ := List.mem_map.mp hmem
  obtain ⟨hafter, hsize, hvalue⟩ := fit?_eq_some_iff.mp hf
  have htext : opening ++ after = opening ++ Bytes.ofString name ++ closing ++ f.rest := by
    simp [hafter]
  refine ⟨name, ?_, ?_⟩
  · rw [htext]
    refine .token (List.mem_map_of_mem hentry) (fun other hother hstarts => ?_) hscan
    obtain ⟨entry, hentry', rfl⟩ := List.mem_map.mp hother
    obtain ⟨g, hg⟩ := startsToken_iff_fit?.mp (htext ▸ hstarts)
    have hle := hmax g (List.mem_map.mpr ⟨entry, hentry', hg⟩)
    rwa [(fit?_eq_some_iff.mp hg).2.1, hsize] at hle
  · have hget : values.get? name = some value := NameMap.get?_eq_some_iff.mpr hentry
    simp [Piece.written, hget, hvalue]

/-- Where nothing fits, the scan keeps the first byte of the delimiter. -/
theorem scan_of_longest?_none {values : Values} {b : UInt8} {bs after : Bytes} {pieces : List Piece}
    (h : longest? closing after values.entries = none)
    (hscan : Scan values.names (b :: bs) closing (bs ++ after) pieces) :
    Scan values.names (b :: bs) closing (b :: bs ++ after) (.kept b :: pieces) := by
  have hlongest := isLongest_longest? closing after values.entries
  rw [h] at hlongest
  refine .kept (fun name hname hstarts => ?_) hscan
  obtain ⟨entry, hentry, rfl⟩ := List.mem_map.mp hname
  obtain ⟨f, hf⟩ := startsToken_iff_fit?.mp hstarts
  exact absurd (hlongest _ (List.mem_map.mpr ⟨entry, hentry, hf⟩)) (by simp)

/-! ## The loop -/

/-- The bytes that are kept are written as they are. -/
@[simp] theorem flatMap_written_kept (values : Values) (bs : Bytes) :
    (bs.map Piece.kept).flatMap (Piece.written values) = bs := by
  simp [List.flatMap_map, Piece.written]

/-- **The loop writes the pieces of the scan.**  By induction on the fuel: what is left behind a token,
    and behind the first byte of a delimiter that starts none, is shorter than the text. -/
theorem substituteFrom_scan (values : Values) (hopening : opening ≠ []) (closing : Bytes) :
    ∀ (fuel : Nat) (text : Bytes), text.length ≤ fuel →
      ∃ pieces, Scan values.names opening closing text pieces ∧
        substituteFrom values.entries opening closing fuel text =
          pieces.flatMap (Piece.written values) := by
  intro fuel
  induction fuel with
  | zero =>
    intro text hfuel
    obtain rfl := List.eq_nil_of_length_eq_zero (Nat.le_zero.mp hfuel)
    exact ⟨[], .done, rfl⟩
  | succ fuel ih =>
    intro text hfuel
    rw [substituteFrom]
    cases hcut : cut? opening text with
    | none => exact ⟨text.map .kept, scan_of_cut?_none hcut, (flatMap_written_kept values text).symm⟩
    | some cut =>
      obtain ⟨before, after⟩ := cut
      have hlength := congrArg List.length (append_of_cut?_some hcut)
      have hpos := List.length_pos_iff.mpr hopening
      simp only [List.length_append] at hlength
      dsimp only
      cases hfit : longest? closing after values.entries with
      | some f =>
        have hshort : f.rest.length ≤ fuel := by
          have hafter := length_rest_le_of_longest? hfit
          omega
        obtain ⟨pieces, hscan, hrest⟩ := ih f.rest hshort
        obtain ⟨name, htoken, hvalue⟩ := scan_of_longest?_some opening hfit hscan
        refine ⟨before.map .kept ++ .token name :: pieces, scan_of_cut?_some hcut htoken, ?_⟩
        simp [hrest, hvalue]
      | none =>
        obtain ⟨b, bs, rfl⟩ := List.exists_cons_of_ne_nil hopening
        have hshort : (bs ++ after).length ≤ fuel := by
          simp only [List.length_append, List.length_cons] at hlength ⊢
          omega
        obtain ⟨pieces, hscan, hrest⟩ := ih (bs ++ after) hshort
        refine ⟨before.map .kept ++ .kept b :: pieces,
          scan_of_cut?_some hcut (scan_of_longest?_none hfit hscan), ?_⟩
        simp [hrest, Piece.written]

/-- Any fuel as large as the text writes the pieces of the scan, with any values for its names. -/
theorem substituteFrom_eq_of_scan {values : Values} {text : Bytes} {pieces : List Piece} {fuel : Nat}
    (hopening : opening ≠ []) (hscan : Scan names opening closing text pieces)
    (hperm : names.Perm values.names) (hfuel : text.length ≤ fuel) :
    substituteFrom values.entries opening closing fuel text =
      pieces.flatMap (Piece.written values) := by
  obtain ⟨pieces', hscan', hwritten⟩ :=
    substituteFrom_scan values hopening closing fuel text hfuel
  rw [hwritten, hscan'.unique hopening (hscan.of_perm hperm)]

/-! ## The substitution -/

/-- **Substitution is the plain scan.**  A text is read in exactly one way, position by position: the
    longest token of a declared name that starts there, or else the byte.
    (1) The pieces are the text, so what is outside a token is kept byte for byte.
    (2) The result is the pieces, each token with the value of its name.  The pieces do not depend on
        the values, so this holds for any values of the same names, and no value is read again.
    (3) The order of the map does not matter.
    (4) The loop is through with the text after at most as many rounds as there are bytes. -/
theorem substituteBytes_eq_scan {opening : String} (hopening : opening ≠ "") (values : Values)
    (closing : String) (text : Bytes) :
    ∃ pieces,
      (∀ pieces', Scan values.names (Bytes.ofString opening) (Bytes.ofString closing) text pieces' ↔
        pieces' = pieces) ∧
      pieces.flatMap (Piece.read (Bytes.ofString opening) (Bytes.ofString closing)) = text ∧
      (∀ values' : Values, values'.names.Perm values.names →
        substituteBytes values' opening closing text = pieces.flatMap (Piece.written values')) ∧
      (∀ values' : Values, values'.entries.Perm values.entries →
        substituteBytes values' opening closing text = substituteBytes values opening closing text) ∧
      (∀ fuel, text.length ≤ fuel →
        substituteFrom values.entries (Bytes.ofString opening) (Bytes.ofString closing) fuel text =
          substituteBytes values opening closing text) := by
  have hne := Bytes.ofString_ne_nil hopening
  have hfrom : ∀ values' : Values, substituteBytes values' opening closing text =
      substituteFrom values'.entries (Bytes.ofString opening) (Bytes.ofString closing)
        text.length text := by
    intro values'
    rw [substituteBytes, if_neg (by simpa [String.isEmpty_iff] using hopening)]
  obtain ⟨pieces, hscan, -⟩ := substituteFrom_scan values hne (Bytes.ofString closing) text.length text
    (Nat.le_refl _)
  have hwritten : ∀ values' : Values, values'.names.Perm values.names →
      substituteBytes values' opening closing text = pieces.flatMap (Piece.written values') := by
    intro values' hperm
    rw [hfrom, substituteFrom_eq_of_scan hne hscan hperm.symm (Nat.le_refl _)]
  refine ⟨pieces, fun pieces' => ⟨fun h => h.unique hne hscan, fun h => h ▸ hscan⟩,
    hscan.flatMap_read, hwritten, ?_, ?_⟩
  · intro values' hperm
    have hget : Piece.written values' = Piece.written values := by
      funext piece
      cases piece with
      | kept b => rfl
      | token name => simp only [Piece.written, NameMap.get?_of_perm hperm]
    rw [hwritten values' (hperm.map Prod.fst), hwritten values (List.Perm.refl _), hget]
  · intro fuel hfuel
    rw [hwritten values (List.Perm.refl _),
      substituteFrom_eq_of_scan hne hscan (List.Perm.refl _) hfuel]

/-- A delimiter that overlaps itself, and a name that holds the closing one: the scan keeps a bracket,
    takes the longer name behind it, and keeps the bracket that is left. -/
theorem substituteBytes_overlap :
    ∃ pieces, Scan ["N", "N]"] (Bytes.ofString "[[") (Bytes.ofString "]")
        (Bytes.ofString "[[[N]]]") pieces ∧
      substituteBytes (.ofList [("N", "a"), ("N]", "b")]) "[[" "]" (Bytes.ofString "[[[N]]]") =
        pieces.flatMap (Piece.written (.ofList [("N", "a"), ("N]", "b")])) ∧
      substituteBytes (.ofList [("N", "a"), ("N]", "b")]) "[[" "]" (Bytes.ofString "[[[N]]]") =
        Bytes.ofString "[b]" := by
  obtain ⟨pieces, hscan, -, hwritten, -, -⟩ := @substituteBytes_eq_scan "[[" (by decide)
    (.ofList [("N", "a"), ("N]", "b")]) "]" (Bytes.ofString "[[[N]]]")
  exact ⟨pieces, (hscan pieces).mpr rfl, hwritten _ (List.Perm.refl _), by decide +kernel⟩

end Stencil.Token
