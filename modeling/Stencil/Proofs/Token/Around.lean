/-
  A token is rendered for itself.

  A token beside which all declared tokens stand is met by the scan, whatever comes before it and behind
  it: the scan of the text is that of what is before, the token, and that of what is behind
  (`scan_around`).  So its value is written between what the two become (`renderBytes_around`).

  Tokens can run into each other, as `%A%B%` does with `%` for both delimiters.  They cannot if the two
  delimiters share no byte, and the names none with them (`beside_token`).
-/
import Stencil.Proofs.Replacement.Around
import Stencil.Proofs.Token.Restore
import Stencil.Proofs.Token.Segments

namespace Stencil

namespace Token

variable {names : List String} {opening closing before after : Bytes} {name : String}
  {ps qs : List Piece}

/-- A token that starts in front of `kept` and lies beside it ends there, too. -/
theorem startsToken_of_beside {kept : Bytes} {other : String} (hbefore : before ≠ [])
    (hbeside : Beside (opening ++ Bytes.ofString other ++ closing) kept)
    (h : StartsToken opening closing (before ++ kept ++ after) other) :
    StartsToken opening closing before other := by
  obtain ⟨y, hy⟩ := h
  rcases hbeside before after [] y hy.symm with hin | hbehind | ⟨hnil, -⟩
  · exact hin
  · have hlength := congrArg List.length hy
    have hle := hbehind.length_le
    have hpos := List.length_pos_iff.mpr hbefore
    simp only [List.length_append] at hlength hle
    omega
  · exact absurd hnil.symm hbefore

/-- At a token beside which all others stand no longer one starts. -/
theorem length_le_of_beside {other : String} (hopening : opening ≠ [])
    (hbeside : Beside (opening ++ Bytes.ofString other ++ closing)
      (opening ++ Bytes.ofString name ++ closing))
    (h : StartsToken opening closing (opening ++ Bytes.ofString name ++ closing ++ after) other) :
    (Bytes.ofString other).length ≤ (Bytes.ofString name).length := by
  obtain ⟨y, hy⟩ := h
  have hpos := List.length_pos_iff.mpr hopening
  have hlength := congrArg List.length hy
  rcases hbeside [] after [] y hy.symm with hin | hbehind | ⟨-, rfl⟩
  · have hle := hin.length_le
    simp only [List.length_append, List.length_nil] at hle
    omega
  · have hle := hbehind.length_le
    simp only [List.length_append] at hlength hle
    omega
  · simp only [List.length_append] at hlength
    omega

/-- **The scan meets a token** beside which all tokens stand, and reads what is around it as before.  By
    induction on the scan of what comes before the token. -/
theorem scan_around (hopening : opening ≠ []) (hname : name ∈ names)
    (hbeside : ∀ other ∈ names, Beside (opening ++ Bytes.ofString other ++ closing)
      (opening ++ Bytes.ofString name ++ closing))
    (hbefore : Scan names opening closing before ps) (hafter : Scan names opening closing after qs) :
    Scan names opening closing (before ++ (opening ++ Bytes.ofString name ++ closing) ++ after)
      (ps ++ .token name :: qs) := by
  induction hbefore with
  | done =>
    exact .token hname (fun other hother => length_le_of_beside hopening (hbeside other hother)) hafter
  | @token met rest ps hmet hlongest _ ih =>
    rw [List.append_assoc, List.append_assoc, ← List.append_assoc rest]
    refine .token hmet (fun other hother hstarts => hlongest other hother ?_) ih
    have hwhole : StartsToken opening closing (opening ++ Bytes.ofString met ++ closing ++ rest ++
        (opening ++ Bytes.ofString name ++ closing) ++ after) other := by
      simpa only [List.append_assoc] using hstarts
    exact startsToken_of_beside (by simp [hopening]) (hbeside other hother) hwhole
  | @kept b rest ps hnone _ ih =>
    refine .kept (fun other hother hstarts => hnone other hother ?_) ih
    exact startsToken_of_beside (List.cons_ne_nil b rest) (hbeside other hother) hstarts

/-! ## Tokens that do not run into each other -/

/-- The opening delimiter starts in a token at its begin only: behind that no byte is one of it. -/
theorem prefix_of_opening {body y z u : Bytes} (hopening : opening ≠ []) (hbody : body ≠ [])
    (hfree : ∀ b ∈ body, b ∉ opening) (hz : z ≠ [])
    (h : opening ++ body ++ y = z ++ (opening ++ u)) : opening ++ body <+: z := by
  rw [List.append_assoc, List.append_eq_append_iff] at h
  rcases h with ⟨a, rfl, hrest⟩ | ⟨a, hsplit, hrest⟩
  · -- it starts behind the first delimiter
    rcases List.append_eq_append_iff.mp hrest with ⟨e, rfl, -⟩ | ⟨e, rfl, hover⟩
    · exact ⟨e, by simp⟩
    · cases e with
      | nil => simp
      | cons b e =>
        -- its first byte would be one of the body
        obtain ⟨o, os, rfl⟩ := List.exists_cons_of_ne_nil hopening
        obtain ⟨rfl, -⟩ := List.cons.inj hover
        exact absurd List.mem_cons_self (hfree o (by simp))
  · -- it starts within it, and goes on where the body begins
    obtain ⟨b, bs, rfl⟩ := List.exists_cons_of_ne_nil hbody
    have hshorter : a.length < opening.length := by
      have hpos := List.length_pos_iff.mpr hz
      rw [hsplit, List.length_append]
      omega
    have hnext : a ++ [b] <+: opening ++ u := ⟨bs ++ y, by simpa using hrest.symm⟩
    have hreach : a ++ [b] <+: opening := by
      refine List.prefix_of_prefix_length_le hnext (List.prefix_append _ _) ?_
      rw [List.length_append, List.length_singleton]
      omega
    exact absurd (hreach.mem (by simp)) (hfree b List.mem_cons_self)

/-- Tokens that start at one place end at one place, when no name holds a byte of the closing
    delimiter. -/
theorem eq_of_same_start {other : String} {rest : Bytes} (hclosing : closing ≠ [])
    (hname : ∀ b ∈ Bytes.ofString name, b ∉ closing)
    (hother : ∀ b ∈ Bytes.ofString other, b ∉ closing)
    (h : opening ++ Bytes.ofString name ++ closing ++ after =
      opening ++ Bytes.ofString other ++ closing ++ rest) : rest = after := by
  have hle := length_le_of_startsToken hclosing hother (h ▸ List.prefix_append _ rest)
  have hge := length_le_of_startsToken hclosing hname (h ▸ List.prefix_append _ after)
  obtain rfl := eq_of_startsToken (List.prefix_append _ after) (h ▸ List.prefix_append _ rest)
    (Nat.le_antisymm hge hle)
  exact (List.append_cancel_left h).symm

/-- **Tokens stand beside each other** when no name is empty or shares a byte with a delimiter, and the
    delimiters share no byte with each other. -/
theorem beside_token {values : Values} {d : Delimiters} (h : d.Apart values)
    (hdistinct : ∀ b ∈ Bytes.ofString d.closing, b ∉ Bytes.ofString d.opening) {other name : String}
    (hother : other ∈ values.names) (hname : name ∈ values.names) :
    Beside (Bytes.ofString (d.token other)) (Bytes.ofString (d.token name)) := by
  have hopening := Bytes.ofString_ne_nil (h.normalized ▸ d.opening_ne_empty)
  have hclosing := Bytes.ofString_ne_nil (h.normalized ▸ d.closing_ne_empty)
  have hbody : ∀ n ∈ values.names, Bytes.ofString n ++ Bytes.ofString d.closing ≠ [] ∧
      ∀ b ∈ Bytes.ofString n ++ Bytes.ofString d.closing, b ∉ Bytes.ofString d.opening := by
    refine fun n hn => ⟨by simp [hclosing], fun b hb => ?_⟩
    rcases List.mem_append.mp hb with hb | hb
    · exact h.opening n hn b hb
    · exact hdistinct b hb
  have hsame : ∀ {after y : Bytes},
      Bytes.ofString (d.token name) ++ after = Bytes.ofString (d.token other) ++ y → y = after := by
    intro after y heq
    simp only [Delimiters.token, Bytes.ofString_append] at heq
    exact eq_of_same_start hclosing (h.closing name hname) (h.closing other hother) heq
  intro before after x y htext
  rw [List.append_assoc, List.append_assoc, List.append_eq_append_iff] at htext
  rcases htext with ⟨z, rfl, hrest⟩ | ⟨z, rfl, hrest⟩
  · by_cases hz : z = []
    · rw [hz, List.nil_append] at hrest
      exact .inr (.inr ⟨by rw [hz, List.append_nil], hsame hrest⟩)
    · -- the other one starts behind, where the first token has no byte of its delimiter
      have hin : Bytes.ofString (d.token name) <+: z := by
        simp only [Delimiters.token, Bytes.ofString_append, List.append_assoc] at hrest ⊢
        exact prefix_of_opening hopening (hbody name hname).1 (hbody name hname).2 hz
          (by simpa using hrest)
      obtain ⟨u, rfl⟩ := hin
      rw [List.append_assoc, List.append_cancel_left_eq] at hrest
      exact .inr (.inl ⟨u, hrest.symm⟩)
  · by_cases hz : z = []
    · rw [hz, List.nil_append] at hrest
      exact .inr (.inr ⟨by rw [hz, List.append_nil], hsame hrest.symm⟩)
    · have hin : Bytes.ofString (d.token other) <+: z := by
        simp only [Delimiters.token, Bytes.ofString_append, List.append_assoc] at hrest ⊢
        exact prefix_of_opening hopening (hbody other hother).1 (hbody other hother).2 hz
          (by simpa using hrest)
      exact .inl ((List.prefix_append_right_inj x).mpr hin)

end Token

namespace Delimiters

variable {d : Delimiters} {values : Values} {name value : String}

open Token

/-- **A token becomes its value**, between what is before and what is behind it. -/
theorem renderBytes_around (hvalue : values.get? name = some value)
    (hbeside : ∀ other ∈ values.names, Beside (Bytes.ofString (d.normalized.token other))
      (Bytes.ofString (d.normalized.token name))) (before after : Bytes) :
    d.renderBytes values (before ++ Bytes.ofString (d.normalized.token name) ++ after) =
      d.renderBytes values before ++ Bytes.ofString value ++ d.renderBytes values after := by
  obtain ⟨ps, hbefore, hps⟩ := d.exists_scan values before
  obtain ⟨qs, hafter, hqs⟩ := d.exists_scan values after
  have hname : name ∈ values.names := NameMap.get?_isSome_iff.mp (by rw [hvalue]; rfl)
  simp only [token, Bytes.ofString_append] at hbeside ⊢
  have hwhole := scan_around (Bytes.ofString_ne_nil d.opening_ne_empty) hname hbeside hbefore hafter
  rw [renderBytes, substituteBytes_eq_of_scan d.opening_ne_empty hwhole, List.flatMap_append,
    List.flatMap_cons, ← hps, ← hqs, Piece.written, hvalue]
  simp

end Delimiters

end Stencil
