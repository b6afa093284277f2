/-
  Rendering a path segment by segment.

  A token without slashes lies in one segment of a path.  So the scan of a path is the scans of its
  segments with the slashes kept between them (`scan_append_cons`), and what is rendered are the
  segments, each for itself (`renderPath_append_slash`).  A value may hold slashes, so a segment can become
  several names or none: those are its `renderName`.  What says nothing, the empty segment and `.`, is
  too short for a token and stays as it is (`renderName_of_isIdle`).  A rendered path has the names of its
  rendered segments, whatever else it is spelled with (`names_renderPath`).
-/
import Stencil.Proofs.Path.Names
import Stencil.Proofs.Text.Utf8
import Stencil.Proofs.Token.Delimiters
import Stencil.Proofs.Token.Scan

namespace Stencil

namespace Token

variable {names : List String} {opening closing : Bytes} {b : UInt8}

/-- A text without a byte ends before the first such byte. -/
theorem isPrefix_of_not_mem {part before after : Bytes} (hb : b ∉ part)
    (h : part <+: before ++ b :: after) : part <+: before := by
  rcases List.prefix_or_prefix_of_prefix h (List.prefix_append before _) with hbefore | hover
  · exact hbefore
  · obtain ⟨rest, rfl⟩ := hover
    cases rest with
    | nil => simp
    | cons x rest =>
      rw [List.prefix_append_right_inj, List.cons_prefix_cons] at h
      exact absurd (by simp [h.1]) hb

/-- **A text is scanned apart at a byte that is in no token.** -/
theorem scan_append_cons (hopening : opening ≠ [])
    (hb : ∀ name ∈ names, b ∉ opening ++ Bytes.ofString name ++ closing) {before after : Bytes}
    {ps qs : List Piece} (hbefore : Scan names opening closing before ps)
    (hafter : Scan names opening closing after qs) :
    Scan names opening closing (before ++ b :: after) (ps ++ .kept b :: qs) := by
  induction hbefore with
  | done =>
    refine .kept (fun name hname hstarts => ?_) hafter
    -- a token here would lie before the byte, where there is nothing
    have hempty : opening ++ Bytes.ofString name ++ closing <+: [] :=
      isPrefix_of_not_mem (hb name hname) hstarts
    simp [hopening] at hempty
  | @token name rest ps hname hlongest _ ih =>
    rw [List.append_assoc, List.cons_append]
    refine .token hname (fun other hother hstarts => hlongest other hother ?_) ih
    rw [← List.append_assoc] at hstarts
    exact isPrefix_of_not_mem (hb other hother) hstarts
  | @kept x rest ps hnone _ ih =>
    refine .kept (fun name hname hstarts => hnone name hname ?_) ih
    exact isPrefix_of_not_mem (hb name hname) (List.cons_append ▸ hstarts)

/-- The scan of a text in which no token starts keeps all of it. -/
theorem scan_kept {text : Bytes}
    (h : ∀ name ∈ names, ∀ part, part <:+ text → ¬ StartsToken opening closing part name) :
    Scan names opening closing text (text.map .kept) := by
  induction text with
  | nil => exact .done
  | cons x text ih =>
    refine .kept (fun name hname => h name hname _ (List.suffix_refl _)) (ih ?_)
    exact fun name hname part hpart => h name hname part (hpart.trans (List.suffix_cons x text))

/-- Any scan of a text gives the substituted text. -/
theorem substituteBytes_eq_of_scan {values : Values} {opening closing : String}
    (hopening : opening ≠ "") {text : Bytes} {pieces : List Piece}
    (h : Scan values.names (Bytes.ofString opening) (Bytes.ofString closing) text pieces) :
    substituteBytes values opening closing text = pieces.flatMap (Piece.written values) := by
  rw [substituteBytes, if_neg (by simpa [String.isEmpty_iff] using hopening)]
  exact substituteFrom_eq_of_scan (Bytes.ofString_ne_nil hopening) h (List.Perm.refl _) (Nat.le_refl _)

end Token

open Token

/-- A byte that is in no token. -/
structure Delimiters.Free (d : Delimiters) (values : Values) (b : UInt8) : Prop where
  opening : b ∉ Bytes.ofString d.normalized.opening
  closing : b ∉ Bytes.ofString d.normalized.closing
  named : ∀ name ∈ values.names, b ∉ Bytes.ofString name

namespace Delimiters

variable {d : Delimiters} {values : Values} {b : UInt8}

/-- Normalized delimiters are not empty, so that every text has its scan. -/
theorem exists_scan (d : Delimiters) (values : Values) (text : Bytes) :
    ∃ pieces, Scan values.names (Bytes.ofString d.normalized.opening)
        (Bytes.ofString d.normalized.closing) text pieces ∧
      d.renderBytes values text = pieces.flatMap (Piece.written values) := by
  obtain ⟨pieces, hscan, -⟩ := substituteFrom_scan values (Bytes.ofString_ne_nil d.opening_ne_empty)
    (Bytes.ofString d.normalized.closing) text.length text (Nat.le_refl _)
  exact ⟨pieces, hscan, substituteBytes_eq_of_scan d.opening_ne_empty hscan⟩

/-- **Bytes are rendered apart at a byte that is in no token.** -/
theorem renderBytes_append_cons (h : d.Free values b) (before after : Bytes) :
    d.renderBytes values (before ++ b :: after) =
      d.renderBytes values before ++ b :: d.renderBytes values after := by
  obtain ⟨ps, hbefore, hps⟩ := d.exists_scan values before
  obtain ⟨qs, hafter, hqs⟩ := d.exists_scan values after
  have hfree : ∀ name ∈ values.names, b ∉ Bytes.ofString d.normalized.opening ++
      Bytes.ofString name ++ Bytes.ofString d.normalized.closing := by
    intro name hname
    simp [h.opening, h.closing, h.named name hname]
  have hwhole := scan_append_cons (Bytes.ofString_ne_nil d.opening_ne_empty) hfree hbefore hafter
  rw [renderBytes, substituteBytes_eq_of_scan d.opening_ne_empty hwhole, List.flatMap_append,
    List.flatMap_cons, ← hps, ← hqs]
  rfl

/-- A single byte is no token. -/
theorem renderBytes_of_length (values : Values) {text : Bytes} (h : text.length ≤ 1) :
    d.renderBytes values text = text := by
  have hopening := List.length_pos_iff.mpr (Bytes.ofString_ne_nil d.opening_ne_empty)
  have hclosing := List.length_pos_iff.mpr (Bytes.ofString_ne_nil d.closing_ne_empty)
  have hscan : Scan values.names (Bytes.ofString d.normalized.opening)
      (Bytes.ofString d.normalized.closing) text (text.map .kept) := by
    refine scan_kept fun name hname part hpart hstarts => ?_
    have hlength := hstarts.length_le.trans hpart.length_le
    simp only [List.length_append] at hlength
    omega
  rw [renderBytes, substituteBytes_eq_of_scan d.opening_ne_empty hscan, flatMap_written_kept]

/-- Where the opening delimiter does not occur, there is nothing to render. -/
theorem renderBytes_of_absent (values : Values) {text : Bytes}
    (h : ¬ Bytes.ofString d.normalized.opening <:+: text) : d.renderBytes values text = text := by
  rw [renderBytes, substituteBytes_eq_of_scan d.opening_ne_empty (scan_of_absent h),
    flatMap_written_kept]

/-- A text without an opening delimiter is rendered as it is. -/
theorem render_of_absent (values : Values) {s : String}
    (h : ¬ Bytes.ofString d.normalized.opening <:+: Bytes.ofString s) : d.render values s = s := by
  show Bytes.lossy (d.renderBytes values (Bytes.ofString s)) = s
  rw [renderBytes_of_absent values h, Bytes.lossy_ofString]

/-! ## Paths -/

/-- The bytes of a path that is rendered; bytes that are no text become U+FFFD. -/
def renderPath (d : Delimiters) (values : Values) (text : Bytes) : Bytes :=
  Bytes.ofString (Bytes.lossy (d.renderBytes values text))

theorem ofString_render (d : Delimiters) (values : Values) (s : String) :
    Bytes.ofString (d.render values s) = d.renderPath values (Bytes.ofString s) := rfl

/-- **A path is rendered segment by segment.** -/
theorem renderPath_append_slash (h : d.Free values Bytes.slash) (before after : Bytes) :
    d.renderPath values (before ++ Bytes.slash :: after) =
      d.renderPath values before ++ Bytes.slash :: d.renderPath values after := by
  rw [renderPath, d.renderBytes_append_cons h, Bytes.ofString_lossy_append_slash]
  rfl

/-- The names that a segment becomes. -/
def renderName (d : Delimiters) (values : Values) (name : Name) : List Name :=
  (Path.mk (d.renderPath values name)).names

/-- What says nothing is too short for a token. -/
theorem renderName_of_isIdle (d : Delimiters) (values : Values) {piece : Bytes}
    (h : Path.isIdle piece = true) : d.renderName values piece = [] := by
  rw [Path.isIdle, Bool.or_eq_true, beq_iff_eq, beq_iff_eq] at h
  rcases h with rfl | rfl
  · rw [renderName, renderPath, d.renderBytes_of_length values (by decide)]
    decide
  · rw [renderName, renderPath, d.renderBytes_of_length values (by decide)]
    decide

/-- **The names of a rendered path are those of its rendered segments**, whatever else it is spelled
    with.  By induction on the pieces of the path. -/
theorem names_renderPath (h : d.Free values Bytes.slash) (text : Bytes) :
    (Path.mk (d.renderPath values text)).names =
      (Path.mk text).names.flatMap (d.renderName values) := by
  suffices hpieces : ∀ xs : List Bytes, xs ≠ [] →
      (Path.mk (d.renderPath values (List.intercalate [Bytes.slash] xs))).names =
        (Path.spoken xs).flatMap (d.renderName values) by
    have hjoined : List.intercalate [Bytes.slash] (Path.pieces text) = text :=
      List.intercalate_splitOn Bytes.slash
    have hwhole := hpieces (Path.pieces text) (Path.pieces_ne_nil text)
    rwa [hjoined] at hwhole
  have hone : ∀ x, (Path.spoken [x]).flatMap (d.renderName values) = d.renderName values x := by
    intro x
    rw [Path.spoken, List.filter_singleton]
    cases hidle : Path.isIdle x with
    | true => simp [renderName_of_isIdle d values hidle]
    | false => simp
  intro xs
  induction xs with
  | nil => exact fun hne => absurd rfl hne
  | cons x xs ih =>
    intro _
    cases xs with
    | nil => rw [List.intercalate_singleton, hone, renderName]
    | cons y ys =>
      have hjoined : List.intercalate [Bytes.slash] (x :: y :: ys) =
          x ++ Bytes.slash :: List.intercalate [Bytes.slash] (y :: ys) := by
        simp [List.intercalate_cons_cons]
      have hsplit : Path.spoken (x :: y :: ys) = Path.spoken [x] ++ Path.spoken (y :: ys) :=
        Path.spoken_append [x] (y :: ys)
      rw [hjoined, renderPath_append_slash h, Path.names_mk_append, ih (List.cons_ne_nil y ys),
        hsplit, List.flatMap_append, hone, renderName]

end Delimiters

end Stencil
