/-
  Different paths to one place.

  A lookup goes by the rules of `Leads`.  Here the rules are taken the other way round: what leads
  somewhere is found there, unless there are more links on the way than are followed
  (`find_of_leadsTo`).  So paths can be compared by the rules alone.

  1. What leads somewhere does so still when more is on the disk (`Leads.keeps`).
  2. A way goes through a place (`Leads.exists_between`), and a lookup goes on from there with the links
     that are left (`Leads.resolve_append`).
  3. The way to a directory depends on the names of the path alone, and so does the number of links on it
     (`resolve_of_spoken`).  A path seen from the root leads where the path itself leads
     (`leadsTo_of_absolute`).
  4. A name behind a path goes on where the path leads (`leadsTo_join`), and is found there
     (`find_join`).

  A file that was written is found again, be it behind a link (`find_of_write`).
-/
import Stencil.Proofs.Disk.Keep
import Stencil.Proofs.Disk.Straight

namespace Stencil.Disk

open Path

variable {d d' : Disk} {follow : Bool} {loc x y : Location} {ps qs rest : List Bytes} {place : Place}
  {p q : Path} {e : Entry} {name : Name}

/-! ## Lookups find what the rules lead to -/

/-- A lookup ends where the rules lead, or for want of links. -/
theorem resolve_of_leads (h : Leads d true loc ps place) (links : Nat) :
    resolve d true links loc ps = .ok place ∨ resolve d true links loc ps = .error .linkLoop := by
  induction h generalizing links with
  | here loc => exact .inl (resolve_nil links)
  | idle dir silent _ ih =>
    rw [resolve_idle dir silent]
    exact ih links
  | up dir _ ih =>
    rw [resolve_up dir]
    exact ih links
  | free dir proper none last => exact .inl (resolve_free dir proper none last links)
  | itself _ _ stays => cases stays
  | link dir proper link _ ih =>
    cases links with
    | zero => exact .inr (resolve_link_zero dir proper link)
    | succ links =>
      rw [resolve_link dir proper link]
      exact ih links
  | down dir proper there unlinked _ ih =>
    rw [resolve_down dir proper there unlinked]
    exact ih links

/-- What leads somewhere is found with links enough. -/
theorem Leads.exists_links (h : Leads d true loc ps place) :
    ∃ links, resolve d true links loc ps = .ok place := by
  induction h with
  | here loc => exact ⟨0, resolve_nil 0⟩
  | idle dir silent _ ih =>
    obtain ⟨links, hfound⟩ := ih
    exact ⟨links, (resolve_idle dir silent links).trans hfound⟩
  | up dir _ ih =>
    obtain ⟨links, hfound⟩ := ih
    exact ⟨links, (resolve_up dir links).trans hfound⟩
  | free dir proper none last => exact ⟨0, resolve_free dir proper none last 0⟩
  | itself _ _ stays => cases stays
  | link dir proper link _ ih =>
    obtain ⟨links, hfound⟩ := ih
    exact ⟨links + 1, (resolve_link dir proper link links).trans hfound⟩
  | down dir proper there unlinked _ ih =>
    obtain ⟨links, hfound⟩ := ih
    exact ⟨links, (resolve_down dir proper there unlinked links).trans hfound⟩

/-- **What leads somewhere is found there**, if the path is admitted and there are not too many links. -/
theorem find_of_leadsTo (h : d.LeadsTo true p (.found x)) (hadmissible : p.Admissible)
    (hnonempty : p.text ≠ []) (hloop : d.find true p ≠ .error .linkLoop) : d.find true p = .ok x := by
  have hlocate : d.locate true p =
      resolve d true maxLinks (startOf p.text d.here) (pieces p.text) := by
    rw [locate, hadmissible.noNul, if_neg Bool.false_ne_true, if_neg (by simpa using hnonempty),
      if_neg (Nat.not_le.mpr hadmissible.short)]
  rw [find, hlocate] at hloop ⊢
  rcases resolve_of_leads h maxLinks with hfound | hends
  · rw [hfound]
  · rw [hends] at hloop
    exact absurd rfl hloop

/-! ## The rules on a disk with more on it -/

/-- **What leads somewhere leads there still.** -/
theorem Leads.keeps (h : Leads d true loc ps (.found x)) (hkeeps : Keeps d d') :
    Leads d' true loc ps (.found x) := by
  generalize hplace : Place.found x = place at h ⊢
  induction h with
  | here loc => exact .here loc
  | idle dir silent _ ih => exact .idle (hkeeps.isDirectoryAt dir) silent (ih hplace)
  | up dir _ ih => exact .up (hkeeps.isDirectoryAt dir) (ih hplace)
  | free => cases hplace
  | itself _ _ stays => cases stays
  | link dir proper link _ ih =>
    obtain ⟨e', he', hlike⟩ := hkeeps.alike link
    cases hlike with
    | refl => exact .link (hkeeps.isDirectoryAt dir) proper he' (ih hplace)
  | down dir proper there unlinked _ ih =>
    obtain ⟨e', he', hlike⟩ := hkeeps.alike there
    exact .down (hkeeps.isDirectoryAt dir) proper he' (hlike.kind_ne_link unlinked) (ih hplace)

theorem LeadsTo.keeps (h : d.LeadsTo true p (.found x)) (hkeeps : Keeps d d') :
    d'.LeadsTo true p (.found x) := by
  rw [LeadsTo, hkeeps.here]
  exact Leads.keeps h hkeeps

/-- A lookup that ended does so still, and it finds what has come to lie in a place that was free. -/
theorem Leads.resolve_keeps (h : Leads d true loc ps place) (hkeeps : Keeps d d') {links : Nat}
    (hplace : place = .found x ∨
      place = .vacant x false ∧ ∃ e, d'.get? x = some e ∧ e.kind ≠ .link)
    (hlinks : resolve d true links loc ps ≠ .error .linkLoop) :
    resolve d' true links loc ps = .ok (.found x) := by
  induction h generalizing links with
  | here loc =>
    rcases hplace with hfound | ⟨hvacant, -⟩
    · rw [Place.found.inj hfound, resolve_nil]
    · cases hvacant
  | idle dir silent _ ih =>
    rw [resolve_idle dir silent] at hlinks
    rw [resolve_idle (hkeeps.isDirectoryAt dir) silent]
    exact ih hplace hlinks
  | up dir _ ih =>
    rw [resolve_up dir] at hlinks
    rw [resolve_up (hkeeps.isDirectoryAt dir)]
    exact ih hplace hlinks
  | @free loc piece rest dir proper none last =>
    rcases hplace with hfound | ⟨hvacant, e, he, hkind⟩
    · cases hfound
    · obtain ⟨rfl, hslashed⟩ := Place.vacant.inj hvacant
      obtain rfl : rest = [] := by simpa using hslashed
      rw [resolve_down (hkeeps.isDirectoryAt dir) proper he hkind, resolve_nil]
  | itself _ _ stays => cases stays
  | link dir proper link _ ih =>
    obtain ⟨e', he', hlike⟩ := hkeeps.alike link
    cases hlike with
    | refl =>
      cases links with
      | zero => exact absurd (resolve_link_zero dir proper link) hlinks
      | succ links =>
        rw [resolve_link dir proper link] at hlinks
        rw [resolve_link (hkeeps.isDirectoryAt dir) proper he']
        exact ih hplace hlinks
  | down dir proper there unlinked _ ih =>
    obtain ⟨e', he', hlike⟩ := hkeeps.alike there
    rw [resolve_down dir proper there unlinked] at hlinks
    rw [resolve_down (hkeeps.isDirectoryAt dir) proper he' (hlike.kind_ne_link unlinked)]
    exact ih hplace hlinks

theorem find_of_locate_keeps (hkeeps : Keeps d d') (hlocate : d.locate true p = .ok place)
    (hplace : place = .found x ∨
      place = .vacant x false ∧ ∃ e, d'.get? x = some e ∧ e.kind ≠ .link) :
    d'.find true p = .ok x := by
  have hleads := leadsTo_of_locate hlocate
  rw [find_eq_ok_iff]
  rw [locate] at hlocate ⊢
  split at hlocate
  · cases hlocate
  rw [if_neg ‹_›]
  split at hlocate
  · cases hlocate
  rw [if_neg ‹_›]
  split at hlocate
  · cases hlocate
  rw [if_neg ‹_›, hkeeps.here]
  exact Leads.resolve_keeps hleads hkeeps hplace (by simp [hlocate])

/-- **A file that was written is found**, be it behind a link. -/
theorem find_of_write {content : Bytes} (h : d.write p content = .ok d') :
    ∃ x mode, d'.find true p = .ok x ∧ d'.get? x = some (.file mode content) := by
  obtain ⟨⟨x, mode⟩, htarget, rfl⟩ := exists_of_map_eq_ok h
  have hkeeps : Keeps d (d.put x (.file mode content)) := keeps_write h
  rw [target] at htarget
  split at htarget
  · -- a slash at the end asks for a directory
    cases hplace : d.locate false (withoutSlashes p) <;> rw [hplace] at htarget <;> cases htarget
  cases hplace : d.locate true p with
  | error fault =>
    rw [hplace] at htarget
    cases htarget
  | ok place =>
    rw [hplace] at htarget
    cases place with
    | vacant y slashed =>
      cases slashed with
      | true => cases htarget
      | false =>
        cases htarget
        cases (leadsTo_of_locate hplace).confirmed with
        | vacant rooted proper free =>
          have hput := get?_put (fits_of_none rooted proper free (.file Entry.fileMode content))
          have hthere := (hput _).trans (if_pos rfl)
          exact ⟨_, _, find_of_locate_keeps hkeeps hplace (.inr ⟨rfl, _, hthere, Kind.noConfusion⟩),
            hthere⟩
    | found y =>
      cases hentry : d.get? y with
      | none => simp [hentry] at htarget
      | some e =>
        cases e with
        | directory mode' => simp [hentry] at htarget
        | link target' => simp [hentry] at htarget
        | file mode' content' =>
          simp only [hentry, Except.ok.injEq, Prod.mk.injEq] at htarget
          obtain ⟨rfl, rfl⟩ := htarget
          exact ⟨y, mode', find_of_locate_keeps hkeeps hplace (.inl rfl),
            (get?_put (fits_of_file hentry _) y).trans (if_pos rfl)⟩

theorem leadsTo_of_write {content : Bytes} (h : d.write p content = .ok d') :
    ∃ x mode, d'.LeadsTo true p (.found x) ∧ d'.get? x = some (.file mode content) := by
  obtain ⟨x, mode, hfound, hfile⟩ := find_of_write h
  exact ⟨x, mode, leadsTo_of_locate (find_eq_ok_iff.mp hfound), hfile⟩

/-! ## Ways that go on -/

/-- A way that goes on starts in a directory. -/
theorem isDirectoryAt_of_leads {piece : Bytes} (h : Leads d true loc (piece :: ps) place) :
    isDirectoryAt d.table loc = true := by
  cases h <;> assumption

/-- Behind some of the pieces a lookup goes on with the links that are left, and there were enough for
    these pieces if it succeeded. -/
theorem Leads.resolve_append (h : Leads d true loc ps (.found x)) {links : Nat}
    (hfound : resolve d true links loc (ps ++ qs) = .ok place) :
    ∃ left, ∀ rest, resolve d true links loc (ps ++ rest) = resolve d true left x rest := by
  generalize hplace : Place.found x = end' at h
  induction h generalizing links with
  | here loc =>
    obtain rfl := Place.found.inj hplace
    exact ⟨links, fun _ => rfl⟩
  | idle dir silent _ ih =>
    simp only [List.cons_append, resolve_idle dir silent] at hfound ⊢
    exact ih hfound hplace
  | up dir _ ih =>
    simp only [List.cons_append, resolve_up dir] at hfound ⊢
    exact ih hfound hplace
  | free => cases hplace
  | itself _ _ stays => cases stays
  | link dir proper link _ ih =>
    cases links with
    | zero =>
      rw [List.cons_append, resolve_link_zero dir proper link] at hfound
      cases hfound
    | succ links =>
      simp only [List.cons_append, resolve_link dir proper link, ← List.append_assoc] at hfound ⊢
      exact ih hfound hplace
  | down dir proper there unlinked _ ih =>
    simp only [List.cons_append, resolve_down dir proper there unlinked] at hfound ⊢
    exact ih hfound hplace

/-- A way that goes through some pieces is somewhere behind the first of them. -/
theorem Leads.exists_between (h : Leads d true loc (ps ++ qs) (.found x)) :
    ∃ y, Leads d true loc ps (.found y) ∧ Leads d true y qs (.found x) := by
  generalize hplace : Place.found x = place at h ⊢
  generalize hpieces : ps ++ qs = pieces at h
  induction h generalizing ps with
  | here loc =>
    obtain ⟨rfl, rfl⟩ := List.append_eq_nil_iff.mp hpieces
    exact ⟨loc, .here loc, .here loc⟩
  | @idle loc piece rest place dir silent next ih =>
    rcases List.append_eq_cons_iff.mp hpieces with ⟨rfl, rfl⟩ | ⟨ps, rfl, hrest⟩
    · exact ⟨loc, .here loc, .idle dir silent next⟩
    · obtain ⟨y, hfirst, hsecond⟩ := ih hplace hrest.symm
      exact ⟨y, .idle dir silent hfirst, hsecond⟩
  | @up loc rest place dir next ih =>
    rcases List.append_eq_cons_iff.mp hpieces with ⟨rfl, rfl⟩ | ⟨ps, rfl, hrest⟩
    · exact ⟨loc, .here loc, .up dir next⟩
    · obtain ⟨y, hfirst, hsecond⟩ := ih hplace hrest.symm
      exact ⟨y, .up dir hfirst, hsecond⟩
  | free => cases hplace
  | itself _ _ stays => cases stays
  | @link loc piece target rest place dir proper link next ih =>
    rcases List.append_eq_cons_iff.mp hpieces with ⟨rfl, rfl⟩ | ⟨ps, rfl, hrest⟩
    · exact ⟨loc, .here loc, .link dir proper link next⟩
    · obtain ⟨y, hfirst, hsecond⟩ := ih hplace (by rw [hrest, List.append_assoc])
      exact ⟨y, .link dir proper link hfirst, hsecond⟩
  | @down loc piece rest place e dir proper there unlinked next ih =>
    rcases List.append_eq_cons_iff.mp hpieces with ⟨rfl, rfl⟩ | ⟨ps, rfl, hrest⟩
    · exact ⟨loc, .here loc, .down dir proper there unlinked next⟩
    · obtain ⟨y, hfirst, hsecond⟩ := ih hplace hrest.symm
      exact ⟨y, .down dir proper there unlinked hfirst, hsecond⟩

/-- Behind a place that is reached the way goes on. -/
theorem Leads.append (h : Leads d true loc ps (.found x)) (hnext : Leads d true x qs place) :
    Leads d true loc (ps ++ qs) place := by
  generalize hplace : Place.found x = end' at h
  induction h with
  | here loc =>
    obtain rfl := Place.found.inj hplace
    exact hnext
  | idle dir silent _ ih => exact .idle dir silent (ih hplace)
  | up dir _ ih => exact .up dir (ih hplace)
  | free => cases hplace
  | itself _ _ stays => cases stays
  | link dir proper link _ ih =>
    have hbehind := ih hplace
    rw [List.append_assoc] at hbehind
    exact .link dir proper link hbehind
  | down dir proper there unlinked _ ih => exact .down dir proper there unlinked (ih hplace)

theorem resolve_after_idle {idle : List Bytes} (hdir : isDirectoryAt d.table loc = true)
    (hidle : ∀ piece ∈ idle, isIdle piece = true) (links : Nat) :
    resolve d follow links loc (idle ++ ps) = resolve d follow links loc ps := by
  induction idle with
  | nil => rfl
  | cons piece idle ih =>
    rw [List.cons_append, resolve_idle hdir (hidle piece List.mem_cons_self)]
    exact ih fun q hq => hidle q (List.mem_cons_of_mem piece hq)

/-- **The lookup of a directory** depends on what the pieces say. -/
theorem resolve_of_spoken {links : Nat} (h : resolve d true links loc ps = .ok (.found x))
    (hx : isDirectoryAt d.table x = true) (heq : spoken ps = spoken qs) :
    resolve d true links loc qs = .ok (.found x) := by
  have hleads := leads_of_resolve h
  generalize hplace : Place.found x = place at hleads
  induction hleads generalizing links qs with
  | here loc =>
    obtain rfl := Place.found.inj hplace
    have hidle : ∀ q ∈ qs, isIdle q = true := fun q hq => by
      simpa using List.filter_eq_nil_iff.mp heq.symm q hq
    rw [← List.append_nil qs, resolve_after_idle hx hidle, resolve_nil]
  | @idle loc piece rest place dir silent _ ih =>
    have hsame : spoken (piece :: rest) = spoken rest := by simp [spoken, silent]
    rw [resolve_idle dir silent] at h
    exact ih h (hsame ▸ heq) hplace
  | up dir _ ih =>
    obtain ⟨idle, rest', rfl, hidle, hrest⟩ := exists_idle_of_spoken_eq (by decide) heq
    rw [resolve_up dir] at h
    rw [resolve_after_idle dir hidle, resolve_up dir]
    exact ih h hrest hplace
  | free => cases hplace
  | itself _ _ stays => cases stays
  | link dir proper link _ ih =>
    obtain ⟨idle, rest', rfl, hidle, hrest⟩ :=
      exists_idle_of_spoken_eq (isStep_of_isEntryName proper).speaks heq
    cases links with
    | zero =>
      rw [resolve_link_zero dir proper link] at h
      cases h
    | succ links =>
      rw [resolve_link dir proper link] at h
      rw [resolve_after_idle dir hidle, resolve_link dir proper link]
      refine ih h ?_ hplace
      rw [spoken_append, spoken_append, hrest]
  | down dir proper there unlinked _ ih =>
    obtain ⟨idle, rest', rfl, hidle, hrest⟩ :=
      exists_idle_of_spoken_eq (isStep_of_isEntryName proper).speaks heq
    rw [resolve_down dir proper there unlinked] at h
    rw [resolve_after_idle dir hidle, resolve_down dir proper there unlinked]
    exact ih h hrest hplace

/-- So does the way there. -/
theorem Leads.of_spoken (h : Leads d true loc ps (.found x)) (hx : isDirectoryAt d.table x = true)
    (heq : spoken ps = spoken qs) : Leads d true loc qs (.found x) := by
  obtain ⟨links, hfound⟩ := h.exists_links
  exact leads_of_resolve (resolve_of_spoken hfound hx heq)

/-- Names that go down without a link are gone through one by one. -/
theorem Leads.along {steps : Location} (h : Leads d true loc (steps ++ ps) (.found x))
    (hsteps : IsDescent steps) (hplain : d.IsPlain (loc ++ steps)) :
    Leads d true (loc ++ steps) ps (.found x) := by
  induction steps generalizing loc with
  | nil => rwa [List.append_nil]
  | cons name steps ih =>
    have hname : IsStep name := hsteps name List.mem_cons_self
    rw [List.append_cons] at hplain ⊢
    rw [List.cons_append] at h
    have hnext : Leads d true (loc ++ [name]) (steps ++ ps) (.found x) := by
      generalize steps ++ ps = rest at h
      cases h with
      | idle _ silent =>
        rw [hname.speaks] at silent
        cases silent
      | up => exact absurd rfl hname.onward
      | itself _ _ stays => cases stays
      | link _ _ link => exact absurd link (hplain _ (List.prefix_append _ steps) _)
      | down _ _ _ _ next => exact next
    exact ih hnext (fun n hn => hsteps n (List.mem_cons_of_mem name hn)) hplain

/-- **A path seen from the root** leads to a directory only if the path itself leads there: no link leads
    to the working directory. -/
theorem leadsTo_of_absolute (hq : d.absolute p = .ok q) (hhere : d.IsPlain d.here)
    (hx : isDirectoryAt d.table x = true) (h : d.LeadsTo true q (.found x)) :
    d.LeadsTo true p (.found x) := by
  obtain ⟨habsolute, hnames⟩ := isAbsolute_and_names_of_absolute hq
  have hdescent : IsDescent (startOf p.text d.here) := isDescent_startOf d p.text
  have hplain : d.IsPlain ([] ++ startOf p.text d.here) := by
    rw [List.nil_append, startOf]
    split
    · intro r hr target htarget
      rw [List.prefix_nil.mp hr, get?_nil] at htarget
      cases htarget
    · exact hhere
  have hspoken : spoken (pieces q.text) = spoken (startOf p.text d.here ++ pieces p.text) := by
    rw [spoken_append, hdescent.spoken_eq]
    exact hnames
  have hroot : startOf q.text d.here = [] := if_pos habsolute
  rw [LeadsTo, hroot] at h
  exact (h.of_spoken hx hspoken).along hdescent hplain

/-! ## A name behind a path -/

/-- **Behind a path to a directory**, a name leads on from there. -/
theorem leadsTo_join (h : d.LeadsTo true p (.found x)) (hx : isDirectoryAt d.table x = true)
    (hname : IsStep name) (hnext : Leads d true x [name] place) :
    d.LeadsTo true (p.join ⟨name⟩) place := by
  have hstart : startOf (p.join ⟨name⟩).text d.here = startOf p.text d.here :=
    startOf_congr (isAbsolute_join_relative (isAbsolute_of_whole hname.whole) p) d.here
  obtain ⟨ps, hpieces, hspoken⟩ := exists_pieces_join (p := p) (isAbsolute_of_whole hname.whole)
  rw [LeadsTo, hstart, hpieces, pieces_of_not_mem hname.whole]
  exact (Leads.of_spoken h hx hspoken.symm).append hnext

/-- A path that is too long is refused as such, if it holds no zero byte. -/
theorem find_of_long (hnul : p.text.contains 0 = false) (hlong : maxPath ≤ p.text.length) :
    d.find follow p = .error .nameTooLong := by
  have hnonempty : p.text.isEmpty = false := by
    rw [List.isEmpty_eq_false_iff]
    rintro hnil
    rw [hnil] at hlong
    cases hlong
  rw [find, locate, hnul, if_neg Bool.false_ne_true, hnonempty, if_neg Bool.false_ne_true, if_pos hlong]

/-- **A name behind a path that is found** is found, if the path is still short enough. -/
theorem find_join (h : d.find true p = .ok x) (hx : isDirectoryAt d.table x = true)
    (he : d.get? (x ++ [name]) = some e) (hkind : e.kind ≠ .link)
    (hshort : (p.join ⟨name⟩).text.length < maxPath) :
    d.find true (p.join ⟨name⟩) = .ok (x ++ [name]) := by
  have hproper : isProper (x ++ [name]) = true := isProper_of_get? he
  have hname : IsStep name := isDescent_of_isProper hproper name (by simp)
  have hrelative := isAbsolute_of_whole hname.whole
  obtain ⟨hnul, -, hfound⟩ := reach_eq_ok_iff.mp (reach_of_find h)
  rw [← reach_eq_find hshort, reach_eq_ok_iff]
  refine ⟨noNul_join hnul hname (zero_not_mem_of_isProper hproper name (by simp)), ?_, ?_⟩
  · have hlonger := length_lt_length_join (p := p) hname
    rw [List.isEmpty_eq_false_iff, ← List.length_pos_iff]
    omega
  · obtain ⟨ps, hpieces, hspoken⟩ := exists_pieces_join (p := p) hrelative
    have hthere := resolve_of_spoken hfound hx hspoken.symm
    have hleads := leads_of_resolve hthere
    rw [← List.append_nil ps] at hthere
    obtain ⟨left, hbehind⟩ := hleads.resolve_append hthere
    rw [startOf_congr (isAbsolute_join_relative hrelative p), hpieces, hbehind,
      pieces_of_not_mem hname.whole]
    exact resolve_names he hkind left

/-- The path of a place leads to where a name leads on from there. -/
theorem leads_of_leadsTo_pathOf (h : d.LeadsTo true (pathOf (loc ++ [name])) (.found x))
    (hloc : IsDescent loc) (hname : IsStep name) (hplain : d.IsPlain loc) :
    Leads d true loc [name] (.found x) := by
  have hdescent : IsDescent (loc ++ [name]) := hloc.concat hname
  have hpieces : pieces (pathOf (loc ++ [name])).text = [] :: (loc ++ [name]) := by
    rw [pathOf, pieces_slash, pieces_intercalate (fun n hn => (hdescent n hn).whole) (by simp)]
  have hroot : startOf (pathOf (loc ++ [name])).text d.here = [] := rfl
  rw [LeadsTo, hpieces, hroot] at h
  have hnext : Leads d true [] (loc ++ [name]) (.found x) := by
    generalize loc ++ [name] = steps at h
    cases h with
    | idle _ _ next => exact next
    | itself _ _ stays => cases stays
    | link _ proper => exact absurd proper (by decide)
    | down _ proper => exact absurd proper (by decide)
  exact hnext.along hloc hplain

end Stencil.Disk
