/-
  A name that became a token comes back.

  A replacement puts the token of a name in the place of a text, and the substitution puts the text
  in the place of the token.  Between the tokens stand the gaps of the content (`Replacement.Gaps`),
  so what has to be shown is that the scan takes the tokens and nothing else:

  1. **In a gap no token starts** (`not_startsToken_gap`).  The opening delimiter does not occur in a
     gap.  One that starts in a gap and ends behind it reaches into the delimiter of the token that
     follows, and what comes behind it is a byte of that delimiter.  A name does not begin with one.
  2. **The token that was put in is the longest** (`length_le_of_startsToken`).  A longer name would
     hold the first byte of the closing delimiter.
  3. So the pieces of the scan are the bytes of the gaps, with the token between them
     (`scan_intercalate`).
-/
import Stencil.Proofs.Replacement.Gaps
import Stencil.Proofs.Token.Delimiters
import Stencil.Proofs.Token.Scan
import Stencil.Starter

namespace Stencil

/-- Delimiters that are normalized, and names that are not empty and share no byte with them. -/
structure Delimiters.Apart (d : Delimiters) (values : Values) : Prop where
  normalized : d.normalized = d
  named : ∀ name ∈ values.names, name ≠ ""
  opening : ∀ name ∈ values.names, ∀ b ∈ Bytes.ofString name, b ∉ Bytes.ofString d.opening
  closing : ∀ name ∈ values.names, ∀ b ∈ Bytes.ofString name, b ∉ Bytes.ofString d.closing

namespace Token

/-! ## Where tokens start -/

variable {names : List String} {opening closing : Bytes}

/-- A name that is not empty and shares no byte with a text in front of which it fits is not there. -/
theorem not_startsToken_of_first {text : Bytes} {name : String} (hname : name ≠ "")
    {b : UInt8} (hb : b ∉ Bytes.ofString name) :
    ¬ StartsToken opening closing (opening ++ b :: text) name := by
  rintro ⟨rest, hrest⟩
  obtain ⟨first, others, hfirst⟩ := List.exists_cons_of_ne_nil (Bytes.ofString_ne_nil hname)
  rw [hfirst] at hrest hb
  simp only [List.append_assoc, List.append_cancel_left_eq, List.cons_append, List.cons.injEq]
    at hrest
  exact hb (hrest.1 ▸ List.mem_cons_self ..)

/-- **In a gap no token starts**, when the opening delimiter comes next. -/
theorem not_startsToken_gap {gap after : Bytes} {name : String} (hgap : gap ≠ [])
    (hopening : ¬ opening <:+: gap) (hname : name ≠ "")
    (hapart : ∀ b ∈ Bytes.ofString name, b ∉ opening) :
    ¬ StartsToken opening closing (gap ++ opening ++ after) name := by
  by_cases hstarts : opening <+: gap ++ opening ++ after
  · -- the delimiter is the gap and what its own first bytes add to it
    obtain ⟨reached, hreached⟩ : gap <+: opening := by
      rw [List.append_assoc] at hstarts
      rcases List.prefix_or_prefix_of_prefix hstarts (List.prefix_append _ _) with h | h
      · exact absurd h.isInfix hopening
      · exact h
    have hshorter : reached.length < opening.length := by
      rw [← hreached, List.length_append]
      have hpos := List.length_pos_iff.mpr hgap
      omega
    obtain ⟨behind, hbehind⟩ : reached <+: opening := by
      obtain ⟨rest, hrest⟩ := hstarts
      rw [← hreached, List.append_assoc, List.append_assoc, List.append_cancel_left_eq,
        hreached] at hrest
      exact (List.prefix_or_prefix_of_prefix ⟨rest, hrest⟩ (List.prefix_append _ _)).resolve_right
        (fun h => absurd h.length_le (by omega))
    obtain ⟨b, bs, rfl⟩ : ∃ b bs, behind = b :: bs := by
      refine List.exists_cons_of_ne_nil (fun hnil => ?_)
      rw [← hbehind, hnil, List.append_nil] at hshorter
      exact Nat.lt_irrefl _ hshorter
    have hmem : b ∈ opening := by
      rw [← hbehind]
      simp
    have htext : gap ++ opening ++ after = opening ++ b :: (bs ++ after) := by
      calc gap ++ opening ++ after = gap ++ (reached ++ b :: bs) ++ after := by rw [hbehind]
        _ = gap ++ reached ++ b :: (bs ++ after) := by simp
        _ = opening ++ b :: (bs ++ after) := by rw [hreached]
    rw [htext]
    exact not_startsToken_of_first hname (fun hb => hapart b hb hmem)
  · exact not_startsToken_of_not_prefix hstarts name

/-- **A token is the longest one at its place**, when no name holds a byte of the closing
    delimiter. -/
theorem length_le_of_startsToken {name other : String} {rest : Bytes} (hclosing : closing ≠ [])
    (hapart : ∀ b ∈ Bytes.ofString other, b ∉ closing)
    (h : StartsToken opening closing (opening ++ Bytes.ofString name ++ closing ++ rest) other) :
    (Bytes.ofString other).length ≤ (Bytes.ofString name).length := by
  by_contra hlonger
  obtain ⟨b, bs, rfl⟩ := List.exists_cons_of_ne_nil hclosing
  obtain ⟨rest', hrest'⟩ := h
  simp only [List.append_assoc, List.append_cancel_left_eq] at hrest'
  have hname : Bytes.ofString name ++ [b] <+: Bytes.ofString name ++ (b :: bs ++ rest) :=
    ⟨bs ++ rest, by simp⟩
  have hother : Bytes.ofString other <+: Bytes.ofString name ++ (b :: bs ++ rest) :=
    hrest' ▸ List.prefix_append _ _
  have hholds : Bytes.ofString name ++ [b] <+: Bytes.ofString other := by
    refine List.prefix_of_prefix_length_le hname hother ?_
    simp only [List.length_append, List.length_singleton]
    omega
  exact hapart b (hholds.mem (by simp)) (List.mem_cons_self ..)

/-! ## The scan of the gaps -/

/-- The pieces of gaps with the token of a name between them. -/
def restored (name : String) : List Bytes → List Piece
  | [] => []
  | [gap] => gap.map .kept
  | gap :: gaps => gap.map .kept ++ .token name :: restored name gaps

theorem flatMap_written_restored {values : Values} {name find : String}
    (h : values.get? name = some find) (gaps : List Bytes) :
    (restored name gaps).flatMap (Piece.written values) =
      List.intercalate (Bytes.ofString find) gaps := by
  induction gaps with
  | nil => rfl
  | cons gap gaps ih =>
    cases gaps with
    | nil => simp [restored]
    | cons next gaps =>
      rw [restored, List.intercalate_cons_cons, List.flatMap_append, flatMap_written_kept,
        List.flatMap_cons, ih]
      · simp [Piece.written, h]
      · simp

/-- A gap before a token is kept byte for byte. -/
theorem scan_gap {gap after : Bytes} {pieces : List Piece} (hopening : ¬ opening <:+: gap)
    (hnames : ∀ name ∈ names, name ≠ "" ∧ ∀ b ∈ Bytes.ofString name, b ∉ opening)
    (hrest : Scan names opening closing (opening ++ after) pieces) :
    Scan names opening closing (gap ++ (opening ++ after)) (gap.map .kept ++ pieces) := by
  induction gap with
  | nil => exact hrest
  | cons b gap ih =>
    refine .kept (fun name hname => ?_) (ih fun hin => hopening (List.infix_cons hin))
    have hnone : ¬ StartsToken opening closing (b :: gap ++ opening ++ after) name :=
      not_startsToken_gap (List.cons_ne_nil b gap) hopening (hnames name hname).1
        (hnames name hname).2
    rwa [List.append_assoc] at hnone

/-- **The scan takes the tokens between the gaps, and nothing else.** -/
theorem scan_intercalate {name : String} {gaps : List Bytes} (hname : name ∈ names)
    (hclosing : closing ≠ [])
    (hnames : ∀ name ∈ names, name ≠ "" ∧ ∀ b ∈ Bytes.ofString name, b ∉ opening)
    (hapart : ∀ name ∈ names, ∀ b ∈ Bytes.ofString name, b ∉ closing)
    (hgaps : ∀ gap ∈ gaps, ¬ opening <:+: gap) :
    Scan names opening closing
      (List.intercalate (opening ++ Bytes.ofString name ++ closing) gaps) (restored name gaps) := by
  induction gaps with
  | nil => exact .done
  | cons gap gaps ih =>
    have hgap := hgaps gap (List.mem_cons_self ..)
    cases gaps with
    | nil => simpa [restored] using scan_of_absent hgap
    | cons next gaps =>
      have hrest := ih fun g hg => hgaps g (List.mem_cons_of_mem _ hg)
      have htoken := Scan.token hname
        (fun other hother hstarts =>
          length_le_of_startsToken hclosing (hapart other hother) hstarts) hrest
      simp only [List.append_assoc] at htoken
      have hscan := scan_gap hgap hnames htoken
      simpa [restored, List.intercalate_cons_cons] using hscan

end Token

open Token Replacement

/-- **A name that became a token comes back.**  Put the token of a name in the place of every occurrence
    of its value: the substitution then gives the content back byte for byte, as long as the opening
    delimiter does not occur in the content and no name shares a byte with a delimiter.  The
    replacement that a first configuration gets for a project name is of this form. -/
theorem substituteBytes_applyReplacements {values : Values} {d : Delimiters} {name find : String}
    {content : Bytes} (hvalue : values.get? name = some find) (hfind : find ≠ "")
    (hapart : d.Apart values) (hcontent : ¬ Bytes.ofString d.opening <:+: content) :
    substituteBytes values d.opening d.closing
        (applyReplacements [⟨find, d.token name⟩] content) = content ∧
      (Starter.rulesFor (some find)).replacements =
        [⟨find, ({} : Delimiters).token "PROJECT_NAME"⟩] := by
  refine ⟨?_, rfl⟩
  have hopening : d.opening ≠ "" := hapart.normalized ▸ d.opening_ne_empty
  have hclosing := Bytes.ofString_ne_nil (hapart.normalized ▸ d.closing_ne_empty)
  have hname : name ∈ values.names := NameMap.get?_isSome_iff.mp (by rw [hvalue]; rfl)
  obtain ⟨gaps, hgaps, hreplaced⟩ := exists_gaps (Bytes.ofString_ne_nil hfind) content
  have happlied : applyReplacements [⟨find, d.token name⟩] content =
      List.intercalate
        (Bytes.ofString d.opening ++ Bytes.ofString name ++ Bytes.ofString d.closing) gaps := by
    simp [applyReplacements, Replacement.apply, hfind, hreplaced, Delimiters.token]
  have hkept : ∀ gap ∈ gaps, ¬ Bytes.ofString d.opening <:+: gap := by
    intro gap hgap hin
    refine hcontent (hin.trans ?_)
    rw [← hgaps.intercalate]
    exact infix_intercalate _ hgap
  have hscan := scan_intercalate hname hclosing
    (fun n hn => ⟨hapart.named n hn, hapart.opening n hn⟩) hapart.closing hkept
  rw [substituteBytes, if_neg (by simpa [String.isEmpty_iff] using hopening), happlied,
    substituteFrom_eq_of_scan (Bytes.ofString_ne_nil hopening) hscan (List.Perm.refl _) (Nat.le_refl _),
    flatMap_written_restored hvalue, hgaps.intercalate]

/-- Two occurrences that touch, with half a delimiter on either side: the tokens stand between braces
    that belong to no delimiter, and the name comes back. -/
theorem substituteBytes_applyReplacements_braces :
    applyReplacements [⟨"My", ({} : Delimiters).token "PROJECT_NAME"⟩] (Bytes.ofString "\x7bMyMy\x7d") =
        Bytes.ofString "\x7b\x7b\x7bPROJECT_NAME\x7d\x7d\x7b\x7bPROJECT_NAME\x7d\x7d\x7d" ∧
      substituteBytes (.ofList [("NAME", "x"), ("PROJECT_NAME", "My")]) "\x7b\x7b" "\x7d\x7d"
        (applyReplacements [⟨"My", ({} : Delimiters).token "PROJECT_NAME"⟩]
          (Bytes.ofString "\x7bMyMy\x7d")) = Bytes.ofString "\x7bMyMy\x7d" := by
  have hapart : ({} : Delimiters).Apart (.ofList [("NAME", "x"), ("PROJECT_NAME", "My")]) := by
    constructor <;> decide +kernel
  have hvalue : (NameMap.ofList [("NAME", "x"), ("PROJECT_NAME", "My")]).get? "PROJECT_NAME" =
      some "My" := rfl
  have hcontent : ¬ Bytes.ofString "\x7b\x7b" <:+: Bytes.ofString "\x7bMyMy\x7d" := by decide
  exact ⟨by decide +kernel,
    (substituteBytes_applyReplacements hvalue (by decide) hapart hcontent).1⟩

end Stencil
