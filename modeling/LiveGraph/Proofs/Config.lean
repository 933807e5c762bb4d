import LiveGraph.Config.Document
import LiveGraph.Graph.Basic
import LiveGraph.Proofs.Graph.Consistency
import LiveGraph.Proofs.Json.Reader

/-!
# What a configuration document denotes

A text is read as a configuration exactly if it spells a document that denotes the configuration, and the
configuration is one that the stores accept. What a document denotes is said here without the reader: an
object without unknown and repeated keys, or an array of the first fields in order, where each field has
the given value or, on its own, its default.

This holds for any reader of documents that gives exactly what a text spells (`Json.Reads`).

A configuration can be printed in many ways: its members in any order, members with default values left
out or not, and every spelling of the resulting document. All of them are read back as the configuration.
-/

namespace LiveGraph

namespace Json

/-! ## Records in documents -/

/-- The document gives these members of a record with the named fields. -/
inductive Fields (names : List String) : Json → List (String × Json) → Prop
  | named {members : List (String × Json)} (known : ∀ m ∈ members, m.1 ∈ names)
      (distinct : (members.map (·.1)).Nodup) : Fields names (.object members) members
  | listed {items : List Json} (fits : items.length ≤ names.length) :
      Fields names (.array items) (names.zip items)

/-- The value of a field: what its member denotes, or the default if it has no member. -/
inductive Given {α : Type} (Denotes : Json → α → Prop) (members : List (String × Json))
    (name : String) (default : α) : α → Prop
  | present {x : Json} {a : α} (hmem : (name, x) ∈ members) (h : Denotes x a) :
      Given Denotes members name default a
  | absent (h : ∀ x, (name, x) ∉ members) : Given Denotes members name default default

/-- The document is the size, written as a plain integer. -/
inductive Size : Json → Nat → Prop
  | intro {n : Nat} (h : n < sizeLimit) : Size (.number ⟨false, n, true⟩) n

/-- The document is the text. -/
inductive Text : Json → String → Prop
  | intro {s : String} : Text (.string s) s

/-- A document is read as a size exactly if it denotes one. -/
theorem size?_eq_some_iff {doc : Json} {n : Nat} : doc.size? = some n ↔ Size doc n := by
  rw [size?, Option.filter_eq_some_iff]
  constructor
  · rintro ⟨hnatural, hlt⟩
    unfold natural? at hnatural
    split at hnatural
    · cases hnatural
      exact .intro (of_decide_eq_true hlt)
    · cases hnatural
  · rintro ⟨hlt⟩
    exact ⟨rfl, decide_eq_true hlt⟩

theorem string?_eq_some_iff {doc : Json} {s : String} : doc.string? = some s ↔ Text doc s := by
  constructor
  · intro h
    unfold string? at h
    split at h
    · cases h
      exact .intro
    · cases h
  · rintro ⟨⟩
    rfl

/-- A document is read as the fields of a record exactly if it lists them in order or names them. -/
theorem fields?_eq_some_iff {names : List String} {doc : Json} {members : List (String × Json)} :
    doc.fields? names = some members ↔ Fields names doc members := by
  constructor
  · intro h
    unfold fields? at h
    split at h
    · next given =>
      obtain ⟨⟨hknown, hdistinct⟩, hmembers⟩ := Option.ite_none_right_eq_some.1 h
      cases hmembers
      refine .named ?_ hdistinct
      intro m hm
      have hkey := List.all_eq_true.1 hknown m.1 (List.mem_map_of_mem hm)
      exact List.contains_iff_mem.1 hkey
    · obtain ⟨hfits, hmembers⟩ := Option.ite_none_right_eq_some.1 h
      cases hmembers
      exact .listed hfits
    · cases h
  · rintro (⟨hknown, hdistinct⟩ | hfits)
    · refine Option.ite_none_right_eq_some.2 ⟨⟨List.all_eq_true.2 ?_, hdistinct⟩, rfl⟩
      intro key hkey
      obtain ⟨m, hm, rfl⟩ := List.mem_map.1 hkey
      exact List.contains_iff_mem.2 (hknown m hm)
    · exact Option.ite_none_right_eq_some.2 ⟨hfits, rfl⟩

theorem map_fst_zip_sublist (names : List String) (items : List Json) :
    ((names.zip items).map (·.1)).Sublist names := by
  induction names generalizing items with
  | nil => exact List.Sublist.refl _
  | cons name names ih =>
    cases items with
    | nil => exact List.nil_sublist _
    | cons x xs => exact (ih xs).cons_cons name

namespace Fields

variable {names : List String} {doc : Json} {members : List (String × Json)}

/-- All fields that a document gives are known. -/
theorem known (h : Fields names doc members) : ∀ m ∈ members, m.1 ∈ names := by
  cases h with
  | named known _ => exact known
  | listed _ =>
    intro m hm
    exact (map_fst_zip_sublist names _).subset (List.mem_map_of_mem hm)

/-- Every field is given at most once. -/
theorem distinct (h : Fields names doc members) (hnames : names.Nodup) :
    (members.map (·.1)).Nodup := by
  cases h with
  | named _ distinct => exact distinct
  | listed _ => exact (map_fst_zip_sublist names _).nodup hnames

/-- The document is one level deeper than its members. -/
theorem within (h : Fields names doc members) {d : Nat} (hall : ∀ m ∈ members, Within d m.2) :
    Within (d + 1) doc := by
  cases h with
  | named _ _ => exact .object hall
  | @listed items fits =>
    refine .array ?_
    intro x hx
    have hvalues : (names.zip items).map (·.2) = items := List.map_snd_zip fits
    rw [← hvalues] at hx
    obtain ⟨m, hm, rfl⟩ := List.mem_map.1 hx
    exact hall m hm

end Fields

section Lookup

variable {members : List (String × Json)} {name : String}

/-- With distinct keys, looking up a key finds the member that has it. -/
theorem lookup_eq_some_iff_mem (hdistinct : (members.map (·.1)).Nodup) {x : Json} :
    members.lookup name = some x ↔ (name, x) ∈ members := by
  rw [List.lookup_eq_some_iff]
  constructor
  · rintro ⟨before, after, rfl, -⟩
    exact List.mem_append_right _ List.mem_cons_self
  · intro hmem
    obtain ⟨before, after, rfl⟩ := List.append_of_mem hmem
    refine ⟨before, after, rfl, ?_⟩
    intro m hm
    rw [List.map_append, List.nodup_append] at hdistinct
    have hne := hdistinct.2.2 m.1 (List.mem_map_of_mem hm) name List.mem_cons_self
    simpa using Ne.symm hne

/-- A field is read as its value exactly if the value is given, or is the default and nothing is given. -/
theorem field_eq_some_iff {α : Type} {read : Json → Option α} {Denotes : Json → α → Prop}
    (hread : ∀ {x a}, read x = some a ↔ Denotes x a) (hdistinct : (members.map (·.1)).Nodup)
    {default a : α} :
    field members name default read = some a ↔ Given Denotes members name default a := by
  have hlookup : ∀ x, members.lookup name = some x ↔ (name, x) ∈ members :=
    fun _ => lookup_eq_some_iff_mem hdistinct
  unfold field
  -- without the key the default counts, and no member can have the key
  cases hfound : members.lookup name with
  | none =>
    have habsent : ∀ x, (name, x) ∉ members := by
      intro x hx
      rw [← hlookup, hfound] at hx
      cases hx
    constructor
    · rintro ⟨⟩
      exact .absent habsent
    · rintro (⟨hmem, -⟩ | -)
      · exact absurd hmem (habsent _)
      · rfl
  | some x =>
    have hx := (hlookup x).1 hfound
    constructor
    · intro h
      exact .present hx (hread.1 h)
    · rintro (⟨hmem, h⟩ | habsent)
      · rw [← hlookup, hfound] at hmem
        cases hmem
        exact hread.2 h
      · exact absurd hx (habsent x)

/-- What stands for a field denotes its value. -/
theorem Given.denotes {α : Type} {Denotes : Json → α → Prop} {default a : α}
    (h : Given Denotes members name default a) (hdistinct : (members.map (·.1)).Nodup) {x : Json}
    (hx : (name, x) ∈ members) : Denotes x a := by
  rw [← lookup_eq_some_iff_mem hdistinct] at hx
  cases h with
  | present hmem h =>
    rw [← lookup_eq_some_iff_mem hdistinct, hx] at hmem
    cases hmem
    exact h
  | absent habsent =>
    rw [lookup_eq_some_iff_mem hdistinct] at hx
    exact absurd hx (habsent x)

end Lookup

end Json

/-! ## What a document denotes -/

namespace StoreConfig

/-- The document denotes the configuration of a store. -/
def DenotedBy (c : StoreConfig) (doc : Json) : Prop :=
  ∃ members, Json.Fields ["block_size", "max_modified"] doc members ∧
    Json.Given Json.Size members "block_size" 1024 c.blockSize ∧
    Json.Given Json.Size members "max_modified" 32 c.maxModified

/-- A document is read as the configuration of a store exactly if it denotes it. -/
theorem ofJson?_eq_some_iff {doc : Json} {c : StoreConfig} :
    ofJson? doc = some c ↔ c.DenotedBy doc := by
  constructor
  · intro h
    obtain ⟨members, hfields, h⟩ := Option.bind_eq_some_iff.1 h
    obtain ⟨blockSize, hblock, h⟩ := Option.bind_eq_some_iff.1 h
    obtain ⟨maxModified, hmax, h⟩ := Option.bind_eq_some_iff.1 h
    cases h
    have hfields := Json.fields?_eq_some_iff.1 hfields
    have hdistinct := hfields.distinct (by decide)
    exact ⟨members, hfields, (Json.field_eq_some_iff Json.size?_eq_some_iff hdistinct).1 hblock,
      (Json.field_eq_some_iff Json.size?_eq_some_iff hdistinct).1 hmax⟩
  · rintro ⟨members, hfields, hblock, hmax⟩
    have hdistinct := hfields.distinct (by decide)
    refine Option.bind_eq_some_iff.2 ⟨members, Json.fields?_eq_some_iff.2 hfields, ?_⟩
    refine Option.bind_eq_some_iff.2
      ⟨c.blockSize, (Json.field_eq_some_iff Json.size?_eq_some_iff hdistinct).2 hblock, ?_⟩
    exact Option.bind_eq_some_iff.2
      ⟨c.maxModified, (Json.field_eq_some_iff Json.size?_eq_some_iff hdistinct).2 hmax, rfl⟩

/-- The document holds nothing but numbers. -/
theorem DenotedBy.within {c : StoreConfig} {doc : Json} (h : c.DenotedBy doc) (d : Nat) :
    Json.Within (d + 1) doc := by
  obtain ⟨members, hfields, hblock, hmax⟩ := h
  have hdistinct := hfields.distinct (by decide)
  refine hfields.within ?_
  rintro ⟨name, x⟩ hm
  have hname := hfields.known _ hm
  simp only [List.mem_cons, List.not_mem_nil, or_false] at hname
  rcases hname with rfl | rfl
  · obtain ⟨-⟩ := hblock.denotes hdistinct hm
    exact .number
  · obtain ⟨-⟩ := hmax.denotes hdistinct hm
    exact .number

end StoreConfig

namespace GraphConfig

/-- The document denotes the configuration of a graph. -/
def DenotedBy (c : GraphConfig) (doc : Json) : Prop :=
  ∃ members, Json.Fields ["nodes", "edges", "lock_name"] doc members ∧
    Json.Given (fun x a => StoreConfig.DenotedBy a x) members "nodes" ⟨1024, 32⟩ c.nodes ∧
    Json.Given (fun x a => StoreConfig.DenotedBy a x) members "edges" ⟨1024, 32⟩ c.edges ∧
    Json.Given Json.Text members "lock_name" "State" c.lockName

/-- A document is read as a configuration exactly if it denotes it. -/
theorem ofJson?_eq_some_iff {doc : Json} {c : GraphConfig} :
    ofJson? doc = some c ↔ c.DenotedBy doc := by
  constructor
  · intro h
    obtain ⟨members, hfields, h⟩ := Option.bind_eq_some_iff.1 h
    obtain ⟨nodes, hnodes, h⟩ := Option.bind_eq_some_iff.1 h
    obtain ⟨edges, hedges, h⟩ := Option.bind_eq_some_iff.1 h
    obtain ⟨lockName, hlock, h⟩ := Option.bind_eq_some_iff.1 h
    cases h
    have hfields := Json.fields?_eq_some_iff.1 hfields
    have hdistinct := hfields.distinct (by decide)
    exact ⟨members, hfields,
      (Json.field_eq_some_iff StoreConfig.ofJson?_eq_some_iff hdistinct).1 hnodes,
      (Json.field_eq_some_iff StoreConfig.ofJson?_eq_some_iff hdistinct).1 hedges,
      (Json.field_eq_some_iff Json.string?_eq_some_iff hdistinct).1 hlock⟩
  · rintro ⟨members, hfields, hnodes, hedges, hlock⟩
    have hdistinct := hfields.distinct (by decide)
    refine Option.bind_eq_some_iff.2 ⟨members, Json.fields?_eq_some_iff.2 hfields, ?_⟩
    refine Option.bind_eq_some_iff.2
      ⟨c.nodes, (Json.field_eq_some_iff StoreConfig.ofJson?_eq_some_iff hdistinct).2 hnodes, ?_⟩
    refine Option.bind_eq_some_iff.2
      ⟨c.edges, (Json.field_eq_some_iff StoreConfig.ofJson?_eq_some_iff hdistinct).2 hedges, ?_⟩
    exact Option.bind_eq_some_iff.2
      ⟨c.lockName, (Json.field_eq_some_iff Json.string?_eq_some_iff hdistinct).2 hlock, rfl⟩

/-- The document is two levels deep. -/
theorem DenotedBy.within {c : GraphConfig} {doc : Json} (h : c.DenotedBy doc) (d : Nat) :
    Json.Within (d + 2) doc := by
  obtain ⟨members, hfields, hnodes, hedges, hlock⟩ := h
  have hdistinct := hfields.distinct (by decide)
  refine hfields.within ?_
  rintro ⟨name, x⟩ hm
  have hname := hfields.known _ hm
  simp only [List.mem_cons, List.not_mem_nil, or_false] at hname
  rcases hname with rfl | rfl | rfl
  · exact (hnodes.denotes hdistinct hm).within d
  · exact (hedges.denotes hdistinct hm).within d
  · obtain ⟨-⟩ := hlock.denotes hdistinct hm
    exact .string

end GraphConfig

/-! ## Printing -/

namespace Json

/-- The part of a record's printing that a field takes: its member, or nothing if the field has its
default value. -/
inductive Shown (name : String) (Prints : Json → Prop) (usual : Prop) : List (String × Json) → Prop
  | shown {x : Json} (h : Prints x) : Shown name Prints usual [(name, x)]
  | left (h : usual) : Shown name Prints usual []

namespace Shown

variable {name : String} {Prints : Json → Prop} {usual : Prop} {part members : List (String × Json)}

/-- A part of a printed record has the key of its field, if it has one. -/
theorem keys_sublist (h : Shown name Prints usual part) : (part.map (·.1)).Sublist [name] := by
  cases h with
  | shown _ => exact List.Sublist.refl _
  | left _ => exact List.nil_sublist _

theorem not_mem (h : Shown name Prints usual part) {other : String} (hne : other ≠ name) (x : Json) :
    (other, x) ∉ part := by
  intro hx
  have hkey := h.keys_sublist.subset (List.mem_map_of_mem hx)
  exact hne (List.mem_singleton.1 hkey)

/-- A field that is printed is given, and one that is left out has its default. -/
theorem given {α : Type} {Denotes : Json → α → Prop} {default a : α}
    (h : Shown name Prints usual part) (hmem : ∀ x, (name, x) ∈ members ↔ (name, x) ∈ part)
    (hprints : ∀ x, Prints x → Denotes x a) (husual : usual → a = default) :
    Given Denotes members name default a := by
  cases h with
  | @shown x h => exact .present ((hmem x).2 List.mem_cons_self) (hprints x h)
  | left h =>
    rw [husual h]
    refine .absent ?_
    intro x hx
    exact absurd ((hmem x).1 hx) List.not_mem_nil

end Shown

/-- A printing names known fields, each at most once. -/
theorem fields_of_perm {names : List String} {members parts : List (String × Json)}
    (hnames : names.Nodup) (horder : members.Perm parts)
    (hparts : (parts.map (·.1)).Sublist names) : Fields names (.object members) members := by
  have hkeys : (members.map (·.1)).Perm (parts.map (·.1)) := horder.map _
  refine .named ?_ (hkeys.nodup_iff.2 (hparts.nodup hnames))
  intro m hm
  exact hparts.subset (hkeys.subset (List.mem_map_of_mem hm))

end Json

namespace StoreConfig

/-- The document prints the configuration of a store: its members in any order, where those with
default values may be left out. -/
inductive Printed (c : StoreConfig) : Json → Prop
  | intro {blockSize maxModified members : List (String × Json)}
      (hblock : Json.Shown "block_size" (· = .number ⟨false, c.blockSize, true⟩) (c.blockSize = 1024)
        blockSize)
      (hmax : Json.Shown "max_modified" (· = .number ⟨false, c.maxModified, true⟩) (c.maxModified = 32)
        maxModified)
      (horder : members.Perm (blockSize ++ maxModified)) : c.Printed (.object members)

/-- What is printed of the configuration of a store denotes it. -/
theorem Printed.denotedBy {c : StoreConfig} {doc : Json} (h : c.Printed doc) (hv : c.Valid) :
    c.DenotedBy doc := by
  obtain ⟨hblock, hmax, horder⟩ := h
  obtain ⟨-, hle, hsize⟩ := hv
  -- the sizes of a valid configuration are far below the limit of sizes
  have hlimit : maxBlockSize < sizeLimit := by decide
  refine ⟨_, Json.fields_of_perm (by decide) horder ?_, ?_, ?_⟩
  · rw [List.map_append]
    exact hblock.keys_sublist.append hmax.keys_sublist
  · refine hblock.given ?_ ?_ id
    · intro x
      rw [horder.mem_iff, List.mem_append, or_iff_left (hmax.not_mem (by decide) x)]
    · rintro x rfl
      exact .intro (by omega)
  · refine hmax.given ?_ ?_ id
    · intro x
      rw [horder.mem_iff, List.mem_append, or_iff_right (hblock.not_mem (by decide) x)]
    · rintro x rfl
      exact .intro (by omega)

theorem exists_printed (c : StoreConfig) : ∃ doc, c.Printed doc :=
  ⟨_, .intro (.shown rfl) (.shown rfl) (List.Perm.refl _)⟩

end StoreConfig

namespace GraphConfig

/-- The document prints the configuration of a graph: its members in any order, where those with
default values may be left out. -/
inductive Printed (c : GraphConfig) : Json → Prop
  | intro {nodes edges lockName members : List (String × Json)}
      (hnodes : Json.Shown "nodes" c.nodes.Printed (c.nodes = ⟨1024, 32⟩) nodes)
      (hedges : Json.Shown "edges" c.edges.Printed (c.edges = ⟨1024, 32⟩) edges)
      (hlock : Json.Shown "lock_name" (· = .string c.lockName) (c.lockName = "State") lockName)
      (horder : members.Perm (nodes ++ (edges ++ lockName))) : c.Printed (.object members)

/-- What is printed of a configuration denotes it. -/
theorem Printed.denotedBy {c : GraphConfig} {doc : Json} (h : c.Printed doc) (hv : c.Valid) :
    c.DenotedBy doc := by
  obtain ⟨hnodes, hedges, hlock, horder⟩ := h
  refine ⟨_, Json.fields_of_perm (by decide) horder ?_, ?_, ?_, ?_⟩
  · rw [List.map_append, List.map_append]
    exact hnodes.keys_sublist.append (hedges.keys_sublist.append hlock.keys_sublist)
  -- each part is found under its own key, in whatever order the parts stand
  · refine hnodes.given ?_ (fun x hx => hx.denotedBy hv.1) id
    intro x
    rw [horder.mem_iff, List.mem_append, List.mem_append, or_iff_left]
    rintro (hx | hx)
    · exact hedges.not_mem (by decide) x hx
    · exact hlock.not_mem (by decide) x hx
  · refine hedges.given ?_ (fun x hx => hx.denotedBy hv.2) id
    intro x
    rw [horder.mem_iff, List.mem_append, List.mem_append, or_iff_right (hnodes.not_mem (by decide) x),
      or_iff_left (hlock.not_mem (by decide) x)]
  · refine hlock.given ?_ ?_ id
    · intro x
      rw [horder.mem_iff, List.mem_append, List.mem_append,
        or_iff_right (hnodes.not_mem (by decide) x), or_iff_right (hedges.not_mem (by decide) x)]
    · rintro x rfl
      exact .intro

theorem exists_printed (c : GraphConfig) : ∃ doc, c.Printed doc := by
  obtain ⟨nodes, hnodes⟩ := c.nodes.exists_printed
  obtain ⟨edges, hedges⟩ := c.edges.exists_printed
  exact ⟨_, .intro (.shown hnodes) (.shown hedges) (.shown rfl) (List.Perm.refl _)⟩

/-! ## Reading -/

theorem validate_eq_ok_iff (c : GraphConfig) : c.validate = .ok () ↔ c.Valid := by
  have hnodes := StoreConfig.validate_eq_ok_iff c.nodes
  have hedges := StoreConfig.validate_eq_ok_iff c.edges
  unfold validate Valid
  rw [← hnodes, ← hedges]
  cases c.nodes.validate with
  | error e => simp [bind, Except.bind]
  | ok u => simp [bind, Except.bind]

/-- Validation passes a valid configuration on, and no other. -/
theorem map_validate_eq_ok_iff {given c : GraphConfig} :
    given.validate.map (fun _ => given) = .ok c ↔ given = c ∧ c.Valid := by
  have hvalid := validate_eq_ok_iff given
  cases hcheck : given.validate with
  | error e =>
    rw [hcheck] at hvalid
    constructor
    · rintro ⟨⟩
    · rintro ⟨rfl, hv⟩
      cases hvalid.2 hv
  | ok u =>
    constructor
    · rintro ⟨⟩
      exact ⟨rfl, hvalid.1 hcheck⟩
    · rintro ⟨rfl, -⟩
      rfl

section

variable {read : String → Option Json} {d : Nat}

/-- A text is read as a configuration exactly if it spells a document that denotes it, and the
stores accept it. -/
theorem parseBy_eq_ok_iff (hread : Json.Reads read (d + 2)) {text : String} {c : GraphConfig} :
    parseBy read text = .ok c ↔ (∃ doc, Json.Padded doc text.toList ∧ c.DenotedBy doc) ∧ c.Valid := by
  have hdenoted : (read text).bind ofJson? = some c ↔
      ∃ doc, Json.Padded doc text.toList ∧ c.DenotedBy doc := by
    rw [Option.bind_eq_some_iff]
    constructor
    · rintro ⟨doc, hdoc, hc⟩
      exact ⟨doc, hread.sound hdoc, ofJson?_eq_some_iff.1 hc⟩
    · rintro ⟨doc, hdoc, hc⟩
      -- what denotes a configuration is two levels deep, so the bound on the depth does not show
      exact ⟨doc, hread.complete hdoc (hc.within d), ofJson?_eq_some_iff.2 hc⟩
  rw [← hdenoted]
  unfold parseBy
  -- a document that denotes nothing is refused, and the others are validated
  cases (read text).bind ofJson? with
  | none =>
    constructor
    · rintro ⟨⟩
    · rintro ⟨⟨⟩, -⟩
  | some given =>
    rw [Option.some_inj]
    exact map_validate_eq_ok_iff

-- the threshold that is left out has its default, whatever the block size
example : (ofJson? (.object [("nodes", .object [("block_size", .number ⟨false, 8, true⟩)])])).map
    validate = some (.error (.maxModified 8 32)) := by rfl

/-- A graph of a configuration that its stores accept starts out empty. -/
theorem new_of_valid {c : GraphConfig} (hv : c.Valid) :
    Graph.new c = .ok
      { name := c.lockName, data := { nodes := { config := c.nodes }, edges := { config := c.edges } } } := by
  rw [Graph.new, (validate_eq_ok_iff c).2 hv, GraphData.new_eq_ok_iff.2 ⟨hv, rfl⟩]

/-- Reading is exactly what the grammar, the defaults and the bounds say, a graph can be made from what
was read, and every printing of a configuration that the stores accept is read back as it. Nothing is asked of
the reader of documents but that it gives the document that a text spells. -/
theorem parse_reads_exactly_what_is_denoted (hread : Json.Reads read (d + 2)) (text : String)
    (c : GraphConfig) :
    (parseBy read text = .ok c ↔ (∃ doc, Json.Padded doc text.toList ∧ c.DenotedBy doc) ∧ c.Valid) ∧
    (parseBy read text = .ok c → Graph.new c = .ok
      { name := c.lockName
        data := { nodes := { config := c.nodes }, edges := { config := c.edges } } }) ∧
    (c.Valid → (∃ doc, c.Printed doc) ∧ ∀ doc, c.Printed doc →
      (∃ printing : String, Json.Padded doc printing.toList) ∧
      ∀ printing : String, Json.Padded doc printing.toList → parseBy read printing = .ok c) := by
  refine ⟨parseBy_eq_ok_iff hread, ?_, ?_⟩
  · intro h
    exact new_of_valid ((parseBy_eq_ok_iff hread).1 h).2
  · intro hv
    refine ⟨c.exists_printed, ?_⟩
    intro doc hdoc
    constructor
    · obtain ⟨cs, hcs⟩ := Json.exists_spelling doc
      refine ⟨String.ofList cs, ?_⟩
      rw [String.toList_ofList]
      exact hcs.padded
    · intro printing hprinting
      exact (parseBy_eq_ok_iff hread).2 ⟨⟨doc, hprinting, hdoc.denotedBy hv⟩, hv⟩

/-- The reader of documents that there is meets what is asked of one, so all of this holds of `parse`. -/
theorem parse_reads_by_own_reader :
    Json.Reads Json.parse? Json.maxDepth ∧ ∀ (text : String) (c : GraphConfig),
    (parse text = .ok c ↔ (∃ doc, Json.Padded doc text.toList ∧ c.DenotedBy doc) ∧ c.Valid) ∧
    (parse text = .ok c → Graph.new c = .ok
      { name := c.lockName
        data := { nodes := { config := c.nodes }, edges := { config := c.edges } } }) ∧
    (c.Valid → (∃ doc, c.Printed doc) ∧ ∀ doc, c.Printed doc →
      (∃ printing : String, Json.Padded doc printing.toList) ∧
      ∀ printing : String, Json.Padded doc printing.toList → parse printing = .ok c) :=
  ⟨Json.reads_parse?, fun text c => parse_reads_exactly_what_is_denoted (d := 125) Json.reads_parse? text c⟩

end

end GraphConfig

end LiveGraph
