/-
  Reading a description of a template that was written.

  Every part of it is read back from the JSON that it is written as; `read?_print` puts that together.
  A point in time is written and read as a text of its own, so it is left to `Timestamp.read?`.
-/
import Stencil.Metadata
import Stencil.Proofs.Json.RoundTrip
import Stencil.Proofs.Token.Delimiters

namespace Stencil

namespace Json

/-- The members of an object are read in the order in which they were written. -/
@[simp] theorem members?_ofMembers (members : List (String × Json)) :
    (ofMembers members).members? = some members := by
  rw [ofMembers, members?]
  induction members with
  | nil => rfl
  | cons m ms ih =>
    rw [List.map_cons, List.mapM_cons, ih]
    rfl

/-- A list is read back if each of its elements is. -/
theorem list?_map {α : Type} {read : Json → Option α} {write : α → Json}
    (h : ∀ x, read (write x) = some x) (xs : List α) :
    reader.list? read (array (xs.map write)) = some xs := by
  rw [ValueReader.list?]
  change (xs.map write).mapM read = some xs
  induction xs with
  | nil => rfl
  | cons x xs ih =>
    rw [List.map_cons, List.mapM_cons, h, ih]
    rfl

/-- A list of texts is read back as it is. -/
theorem strings?_texts (xs : List String) : reader.strings? (texts xs) = some xs := by
  have hread : ∀ s, reader.string? (text s) = some s := fun _ => rfl
  exact list?_map hread xs

theorem isTextual_text (s : String) : (text s).IsTextual := rfl

/-- A list is made of texts if each of its elements is, as the printer asks for. -/
theorem isTextual_array {α : Type} {write : α → Json} (h : ∀ x, (write x).IsTextual) (xs : List α) :
    (array (xs.map write)).IsTextual := by
  change AreTextual (xs.map write)
  induction xs with
  | nil => exact trivial
  | cons x xs ih => exact ⟨h x, ih⟩

theorem isTextual_texts (xs : List String) : (texts xs).IsTextual := isTextual_array isTextual_text xs

/-- An object is made of texts if each of its members is; the names of members are. -/
theorem isTextual_ofMembers {members : List (String × Json)} (h : ∀ m ∈ members, m.2.IsTextual) :
    (ofMembers members).IsTextual := by
  rw [ofMembers]
  change MembersTextual (members.map fun m => (some m.1, m.2))
  induction members with
  | nil => exact trivial
  | cons m ms ih =>
    exact ⟨rfl, h m List.mem_cons_self, ih fun x hx => h x (List.mem_cons_of_mem m hx)⟩

end Json

open Json

namespace Delimiters

/-- Delimiters are written as two texts. -/
theorem isTextual_toJson (d : Delimiters) : d.toJson.IsTextual := ⟨rfl, rfl, rfl, rfl, trivial⟩

/-- Delimiters are read as they were written; they are normalized only later. -/
theorem read?_toJson (d : Delimiters) : read? reader d.toJson = some d := rfl

end Delimiters

namespace Variable

/-- A variable is written in texts and one truth value; what is optional is left out where there is
    none. -/
theorem isTextual_toJson (v : Variable) : v.toJson.IsTextual := by
  rw [toJson]
  refine isTextual_ofMembers fun m hm => ?_
  have hoptional : ∀ name s, m ∈ optionalMember name s → m.2.IsTextual := by
    intro name s hmem
    cases s with
    | none => cases hmem
    | some t =>
      obtain rfl := List.mem_singleton.mp hmem
      rfl
  simp only [List.mem_append, List.mem_cons, List.not_mem_nil, or_false] at hm
  rcases hm with ((((rfl | rfl) | hm) | rfl) | hm) | hm
  · exact isTextual_text v.kind
  · exact trivial
  · exact hoptional _ _ hm
  · exact isTextual_text v.description
  · exact hoptional _ _ hm
  · exact hoptional _ _ hm

/-- A variable is read back, whichever of its fields are written. -/
theorem read?_toJson (v : Variable) : read? reader v.toJson = some v := by
  obtain ⟨kind, required, default, description, derivedFrom, transform⟩ := v
  cases default <;> cases derivedFrom <;> cases transform <;> rfl

/-- The variables are written as an object with a member for each of them. -/
theorem isTextual_allToJson (vs : Variables) : (allToJson vs).IsTextual := by
  refine isTextual_ofMembers fun m hm => ?_
  obtain ⟨⟨name, v⟩, -, rfl⟩ := List.mem_map.mp hm
  exact isTextual_toJson v

/-- The variables are read back in their order: the names differ, so that none takes another's place. -/
theorem readAll?_allToJson (vs : Variables) : readAll? reader (allToJson vs) = some vs := by
  have hread : ∀ es : List (String × Variable),
      (es.map fun e => (e.1, e.2.toJson)).mapM
        (fun m : String × Json => (read? reader m.2).map fun x => (m.1, x)) = some es := by
    intro es
    induction es with
    | nil => rfl
    | cons e es ih =>
      rw [List.map_cons, List.mapM_cons, ih, read?_toJson]
      rfl
  have hmap : NameMap.ofList vs.entries = vs := by
    cases hof : NameMap.ofList vs.entries with
    | mk entries nodup =>
      obtain rfl : entries = vs.entries := by
        rw [← NameMap.entries_ofList vs.nodup, hof]
      rfl
  rw [readAll?, allToJson]
  change ((ofMembers _).members?.bind _) = _
  rw [members?_ofMembers, Option.bind_some]
  refine (congrArg (Option.bind · _) (hread vs.entries)).trans ?_
  exact congrArg some hmap

end Variable

namespace Metadata

/-- A description is made of texts, so the printer and the reader go together on it. -/
theorem isTextual_toJson (m : Metadata) : m.toJson.IsTextual := by
  refine isTextual_ofMembers fun member hmember => ?_
  simp only [List.mem_cons, List.not_mem_nil, or_false] at hmember
  rcases hmember with rfl | rfl | rfl | rfl
  · exact m.delimiters.isTextual_toJson
  · exact Variable.isTextual_allToJson m.declared
  · exact isTextual_texts m.staticFiles
  · exact isTextual_text _

/-- A description is read back member by member; only for the point in time does that depend on what it
    says. -/
theorem ofJson?_toJson (m : Metadata) : ofJson? m.toJson =
    (Timestamp.read? m.generatedAt.toText).map fun t => { m with generatedAt := t } := by
  let fields : List (String × Json) := [
    ("token", m.delimiters.toJson),
    ("variables", Variable.allToJson m.declared),
    ("staticFiles", .texts m.staticFiles),
    ("generatedAt", .text m.generatedAt.toText)]
  have hfields : reader.record? ["token", "variables", "staticFiles", "generatedAt"] m.toJson =
      some fields := rfl
  have htoken : Record.fieldOr fields "token" (Delimiters.read? reader) {} = some m.delimiters :=
    m.delimiters.read?_toJson
  have hvariables : Record.fieldOr fields "variables" (Variable.readAll? reader) ∅ =
      some m.declared := Variable.readAll?_allToJson m.declared
  have hstatic : Record.fieldOr fields "staticFiles" reader.strings? [] = some m.staticFiles :=
    strings?_texts m.staticFiles
  have htime : Record.field? fields "generatedAt"
        (fun j => (reader.string? j).bind Timestamp.read?) =
      Timestamp.read? m.generatedAt.toText := by
    have hlookup : fields.lookup "generatedAt" = some (.text m.generatedAt.toText) := rfl
    have hstring : reader.string? (.text m.generatedAt.toText) = some m.generatedAt.toText := rfl
    rw [Record.field?, hlookup, Option.bind_some, hstring, Option.bind_some]
  simp only [ofJson?, hfields, htoken, hvariables, hstatic, htime, Option.bind_eq_bind,
    Option.bind_some, Option.pure_def]
  exact (Option.map_eq_bind ..).symm

/-- **A description is read back from its text**, up to its point in time, and with its delimiters
    normalized. -/
theorem read?_print (m : Metadata) : read? m.print =
    (Timestamp.read? m.generatedAt.toText).map fun t =>
      { m with delimiters := m.delimiters.normalized, generatedAt := t } := by
  rw [read?, print, read?_pretty_append m.isTextual_toJson "\n" rfl, Option.bind_some, ofJson?_toJson,
    Option.map_map]
  rfl

/-- What a template says that was built from a configuration. -/
theorem eq_of_read?_print_ofConfig {c : Config} {now : Timestamp} {m : Metadata}
    (h : read? (ofConfig c now).print = some m) : ∃ t,
      m = { delimiters := c.delimiters.normalized, declared := c.declared,
            staticFiles := c.staticGlobs, generatedAt := t } := by
  rw [read?_print] at h
  obtain ⟨t, -, rfl⟩ := Option.map_eq_some_iff.mp h
  refine ⟨t, ?_⟩
  simp only [ofConfig, Delimiters.normalized_normalized]

end Metadata

end Stencil
