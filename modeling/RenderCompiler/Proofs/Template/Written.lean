import RenderCompiler.Proofs.Script.Written
import RenderCompiler.Proofs.Template.Decoding

set_option autoImplicit false

namespace RenderCompiler

namespace Json

variable {p : JsonNumber → Prop}

theorem eachEntry_append {entries others : List (String × Json)} (first : EachEntry p entries)
    (later : EachEntry p others) : EachEntry p (entries ++ others) := by
  induction entries with
  | nil => exact later
  | cons entry rest ih => exact ⟨first.1, ih first.2⟩

theorem eachEntry_present {α : Type} {name : String} {encode : α → Json} {given : Option α}
    (each : ∀ a ∈ given, (encode a).Each p) : EachEntry p (presentField name encode given) := by
  cases given with
  | none => trivial
  | some a => exact ⟨each a rfl, trivial⟩

theorem each_entries {α : Type} {encode : α → Json} {entries : Entries α}
    (each : ∀ entry ∈ entries, (encode entry.2).Each p) : (entries.toJson encode).Each p := by
  induction entries with
  | nil => trivial
  | cons entry rest ih =>
    obtain ⟨first, others⟩ := List.forall_mem_cons.mp each
    exact ⟨first, ih others⟩

end Json

open JsonNumber (IsFiniteReal)

theorem Value.each_toJson {value : Value} (proper : value.IsProper) :
    value.toJson.Each IsFiniteReal := by
  cases value with
  | text => trivial
  | number x => exact ⟨x, rfl, proper⟩
  | bound => exact ⟨trivial, trivial⟩

theorem Condition.each_toJson (condition : Condition) : condition.toJson.Each IsFiniteReal :=
  ⟨trivial, trivial, trivial⟩

theorem Loop.each_toJson {loop : Loop} (proper : loop.IsProper) :
    loop.toJson.Each IsFiniteReal := by
  refine Json.eachEntry_append ⟨trivial, trivial, trivial, trivial⟩ ?_
  exact Json.eachEntry_present fun key member => Expr.each_toJson key (proper.2 key member)

theorem Entries.each_values {entries : Entries Value} (proper : entries.All Value.IsProper) :
    (entries.toJson Value.toJson).Each IsFiniteReal :=
  Json.each_entries fun entry member => Value.each_toJson (proper.2 entry member)

theorem Element.each_toEntries {el : Element} (proper : el.IsProper) {children : List Json}
    (below : Json.EachItem IsFiniteReal children) :
    Json.EachEntry IsFiniteReal (el.toEntries children) := by
  have values {name : String} {given : Option (Entries Value)}
      (each : ∀ entries ∈ given, entries.All Value.IsProper) :
      Json.EachEntry IsFiniteReal (presentField name (Entries.toJson Value.toJson) given) :=
    Json.eachEntry_present fun entries member => Entries.each_values (each entries member)
  unfold Element.toEntries
  refine Json.eachEntry_append (Json.eachEntry_append (Json.eachEntry_append (Json.eachEntry_append
    (Json.eachEntry_append (Json.eachEntry_append (Json.eachEntry_append (Json.eachEntry_append
      ⟨trivial, below, trivial⟩ ?_) ?_) ?_) ?_) ?_) ?_) ?_) ?_
  · exact Json.eachEntry_present fun condition _ => condition.each_toJson
  · exact Json.eachEntry_present fun loop member => Loop.each_toJson (proper.loop loop member)
  · exact Json.eachEntry_present fun value member =>
      Value.each_toJson (proper.className value member)
  · exact values proper.classMap
  · exact values proper.style
  · exact values proper.attrs
  · exact values proper.props
  · exact Json.eachEntry_present fun entries _ => Json.each_entries fun _ _ => trivial

mutual

theorem Node.each_toJson (node : Node) (proper : node.IsProper) :
    node.toJson.Each IsFiniteReal := by
  cases node with
  | text value => exact Json.each_ofKind ⟨Value.each_toJson proper, trivial⟩
  | element el children | template el children =>
    have below := Node.each_nodesToJson children proper.2
    exact Json.each_ofKind (Element.each_toEntries proper.1 below)
  | slot el children name =>
    have below := Node.each_nodesToJson children proper.2
    exact Json.each_ofKind
      (Json.eachEntry_append (Element.each_toEntries proper.1 below) ⟨trivial, trivial⟩)
  | custom el children component content =>
    have below := Node.each_nodesToJson children proper.2.1
    exact Json.each_ofKind (Json.eachEntry_append (Element.each_toEntries proper.1 below)
      ⟨trivial, Node.each_contentToJson content proper.2.2.2, trivial⟩)

theorem Node.each_nodesToJson (nodes : List Node) (proper : Node.AllProper nodes) :
    Json.EachItem IsFiniteReal (nodesToJson nodes) := by
  cases nodes with
  | nil => trivial
  | cons node rest =>
    exact ⟨node.each_toJson proper.1, Node.each_nodesToJson rest proper.2⟩

theorem Node.each_contentToJson (content : List (String × List Node))
    (proper : Node.ContentProper content) :
    Json.EachEntry IsFiniteReal (contentToJson content) := by
  cases content with
  | nil => trivial
  | cons slot rest =>
    obtain ⟨name, nodes⟩ := slot
    exact ⟨Node.each_nodesToJson nodes proper.1, Node.each_contentToJson rest proper.2⟩

end

theorem Expr.toJson_ne_null (e : Expr) : e.toJson ≠ .null := by
  cases e <;> simp [toJson, Json.ofKind]

namespace Decoder

open RenderCompiler.Field

variable {origin : Origin}

theorem path_takes {path : Path} (proper : path.IsProper) :
    Decoder.path origin path.toJson = .ok path := by
  change Except.ok (Path.ofText path.text) = _
  rw [show Path.ofText path.text = path from proper]

theorem keep_takes {j : Json} (whole : j.intact = true) : keep origin j = .ok j := by
  cases origin <;> simp [keep, whole]

theorem value_takes {value : Value} (proper : value.IsProper) :
    Decoder.value origin value.toJson = .ok value := by
  have whole := ((Json.each_iff _ _).mp (Value.each_toJson proper)).1
  unfold Decoder.value
  rw [keep_takes whole]
  cases value with
  | text | number => rfl
  | bound path =>
    have bound : boundPath? [("expr", path.toJson)] = some path := by
      change some (Path.ofText path.text) = _
      rw [show Path.ofText path.text = path from proper]
    simp only [Value.toJson, bind, Except.bind, bound]
    rfl

theorem condition_takes {condition : Condition} (proper : condition.path.IsProper) :
    Decoder.condition origin condition.toJson = .ok condition :=
  record_takes (by simp) (.mandatory (path_takes proper) (.withDefault rfl (.nil _)))

theorem loop_takes {loop : Loop} (proper : loop.IsProper) :
    Decoder.loop origin loop.toJson = .ok loop := by
  refine record_takes (by simp) (.mandatory (path_takes proper.1)
    (.withDefault rfl (.withDefault rfl ?_)))
  rw [← List.append_nil (presentField _ _ _)]
  refine .present (fun key member => ?_) rfl (.nil _)
  have whole := ((Json.each_iff _ _).mp (key.each_toJson (proper.2 key member))).1
  exact optional_takes (expr_takes key whole) key.toJson_ne_null

theorem optional_value {given : Option Value} (proper : ∀ value ∈ given, value.IsProper) :
    ∀ value ∈ given, optional Decoder.value origin value.toJson = .ok (some value) := by
  intro value member
  refine optional_takes (value_takes (proper value member)) ?_
  cases value <;> simp [Value.toJson, Json.ofReal]

theorem optional_entries {α : Type} {decode : Decoder α} {encode : α → Json} {holds : α → Prop}
    {given : Option (Entries α)} (proper : ∀ found ∈ given, found.All holds)
    (each : ∀ a, holds a → (encode a).Each IsFiniteReal ∧ decode origin (encode a) = .ok a) :
    ∀ found ∈ given,
      optional (Decoder.entries decode) origin (found.toJson encode) = .ok (some found) := by
  intro found member
  obtain ⟨distinct, inside⟩ := proper found member
  have whole := Json.each_entries fun entry among => (each entry.2 (inside entry among)).1
  refine optional_takes (entries_take distinct ((Json.each_iff _ _).mp whole).1 ?_) ?_
  · exact fun entry among => (each entry.2 (inside entry among)).2
  · simp [Entries.toJson]

theorem filter_own {p : String × Json → Bool} {element own : List (String × Json)}
    (kept : ∀ member ∈ element, p member = true) (left : ∀ member ∈ own, p member = false) :
    (element ++ own).filter p = element := by
  rw [List.filter_append, List.filter_eq_self.mpr kept,
    List.filter_eq_nil_iff.mpr fun member among => by simp [left member among], List.append_nil]

section Elements

variable {node : Decoder Node} {el : Element} {children : List Node} (proper : el.IsProper)
  (nodes : (nodesToJson children).mapM (node .kept) = .ok children)

include proper nodes

theorem toEntries_follows :
    Follows .kept (elementFields node) ({}, []) (el.toEntries (nodesToJson children))
      (el, children) := by
  have values {given : Option (Entries Value)} (all : ∀ found ∈ given, found.All Value.IsProper) :
      ∀ found ∈ given, optional (Decoder.entries Decoder.value) .kept
        (found.toJson Value.toJson) = .ok (some found) :=
    optional_entries all fun value proper => ⟨Value.each_toJson proper, value_takes proper⟩
  have paths : ∀ found ∈ el.on, optional (Decoder.entries Decoder.path) .kept
      (found.toJson Path.toJson) = .ok (some found) :=
    optional_entries proper.on fun path proper => ⟨trivial, path_takes proper⟩
  unfold Element.toEntries
  rw [← List.append_nil (presentField "on" _ _)]
  simp only [List.append_assoc, List.cons_append, List.nil_append]
  refine .withDefault rfl (.withDefault nodes (.present ?_ rfl (.present ?_ rfl (.present ?_ rfl
    (.present (values proper.classMap) rfl (.present (values proper.style) rfl
      (.present (values proper.attrs) rfl (.present (values proper.props) rfl
        (.present paths rfl (.nil _))))))))))
  · intro condition member
    refine optional_takes (condition_takes (proper.condition condition member)) ?_
    simp [Condition.toJson]
  · intro loop member
    refine optional_takes (loop_takes (proper.loop loop member)) ?_
    simp [Loop.toJson]
  · exact optional_value proper.className

theorem tagName_not_mem : tagName ∉ (el.toEntries (nodesToJson children)).map Prod.fst := by
  intro member
  have named := (toEntries_follows proper nodes).name_mem tagName member
  simp [elementFields, tagName] at named

theorem elementWith_takes :
    elementWith node .kept (.object (el.toEntries (nodesToJson children))) = .ok (el, children) :=
  record_takes (by simp [elementFields]) (toEntries_follows proper nodes)

-- The own fields of the record are read first, and then those of the element among them.
theorem extended_takes {σ : Type} {what : String} {own : List (Field σ)} {blank draft : σ}
    {members : List (String × Json)} (distinct : (own.map Field.name).Nodup)
    (apart : ∀ key ∈ (elementFields node).map Field.name, key ∉ own.map Field.name)
    (follows : Follows .kept own blank members draft) :
    extended what own blank node (.object (el.toEntries (nodesToJson children) ++ members)) =
      .ok (draft, el, children) := by
  have element := (toEntries_follows proper nodes).name_mem
  have unknown := fun key among => apart key (element key among)
  have filled := follows.fill [] [] distinct fun _ none => by cases none
  rw [List.nil_append] at filled
  rw [extended, fill_skips unknown, filled]
  simp only [bind, Except.bind, follows.checkPresent]
  rw [filter_own, elementWith_takes proper nodes]
  · rfl
  · intro member among
    have other := unknown member.1 (List.mem_map_of_mem among)
    simp only [Bool.not_eq_true', List.any_eq_false, beq_iff_eq]
    exact fun field inside same => other (List.mem_map.mpr ⟨field, inside, same⟩)
  · intro member among
    have named := follows.name_mem member.1 (List.mem_map_of_mem among)
    obtain ⟨field, inside, same⟩ := List.mem_map.mp named
    simp only [Bool.not_eq_false', List.any_eq_true, beq_iff_eq]
    exact ⟨field, inside, same⟩

end Elements

theorem children_fit {levels : Nat} {el : Element} {children : List Json}
    (fits : ∀ member ∈ el.toEntries children, member.2.Fits levels) :
    ∀ j ∈ children, j.Fits levels := by
  have member : ("children", Json.array children) ∈ el.toEntries children := by
    simp [Element.toEntries]
  exact (fits _ member).items

theorem contentToJson_eq (content : Entries (List Node)) :
    .object (contentToJson content) = content.toJson fun nodes => .array (nodesToJson nodes) := by
  unfold Entries.toJson
  congr 1
  induction content with
  | nil => rfl
  | cons slot rest ih => rw [contentToJson, ih, List.map_cons]

section Nodes

variable {levels : Nat} {kind : String} {members : List (String × Json)}

theorem nodeWithin_ofKind (index : Nat) (found : Node.roles.findIdx? (· == kind) = some index)
    (apart : tagName ∉ members.map Prod.fst) (fits : (Json.ofKind kind members).Fits (levels + 1)) :
    nodeWithin (levels + 1) origin (.ofKind kind members) =
      nodeBody (nodeWithin levels) index (.object members) := by
  rw [nodeWithin]
  exact tagged_takes index found apart fits.1

end Nodes

mutual

theorem nodeWithin_takes (levels : Nat) (origin : Origin) (node : Node) (proper : node.IsProper)
    (fits : node.toJson.Fits levels) : nodeWithin levels origin node.toJson = .ok node := by
  obtain ⟨levels, rfl⟩ := Nat.exists_eq_add_one_of_ne_zero (Nat.ne_zero_of_lt fits.2)
  cases node with
  | text value =>
    refine (nodeWithin_ofKind 0 rfl (by simp [tagName]) fits).trans ?_
    rw [nodeBody, record_takes (by simp) (.mandatory (value_takes proper) (.nil _))]
  | element el children =>
    have below := nodes_take levels .kept children proper.2 (children_fit (fits_members fits))
    refine (nodeWithin_ofKind 1 rfl (tagName_not_mem proper.1 below) fits).trans ?_
    rw [nodeBody, elementWith_takes proper.1 below]
    rfl
  | template el children =>
    have below := nodes_take levels .kept children proper.2 (children_fit (fits_members fits))
    refine (nodeWithin_ofKind 2 rfl (tagName_not_mem proper.1 below) fits).trans ?_
    rw [nodeBody, elementWith_takes proper.1 below]
    rfl
  | slot el children name =>
    obtain ⟨own, -⟩ := List.forall_mem_append.mp (fits_members fits)
    have below := nodes_take levels .kept children proper.2 (children_fit own)
    have apart := tagName_not_mem proper.1 below
    refine (nodeWithin_ofKind 3 rfl (by simpa [tagName] using apart) fits).trans ?_
    rw [nodeBody, extended_takes proper.1 below (by simp) (by simp [elementFields])
      (.withDefault rfl (.nil _))]
    rfl
  | custom el children component content =>
    obtain ⟨inherited, own⟩ := List.forall_mem_append.mp (fits_members fits)
    simp only [List.forall_mem_cons] at own
    have below := nodes_take levels .kept children proper.2.1 (children_fit inherited)
    have slots := content_takes levels .kept content proper.2.2.2
      (own.2.1.mono (Nat.le_succ levels)).entries
    have apart := tagName_not_mem proper.1 below
    have given : entries (list (nodeWithin levels)) .kept (.object (contentToJson content)) =
        .ok content := by
      have whole := own.2.1.1
      rw [contentToJson_eq] at whole ⊢
      exact entries_take proper.2.2.1 whole slots
    refine (nodeWithin_ofKind 4 rfl (by simpa [tagName] using apart) fits).trans ?_
    simp only [nodeBody]
    rw [extended_takes proper.1 below (by simp) (by simp [elementFields])
      (.mandatory rfl (.withDefault given (.nil _)))]
    rfl

theorem nodes_take (levels : Nat) (origin : Origin) (nodes : List Node)
    (proper : Node.AllProper nodes) (fits : ∀ j ∈ nodesToJson nodes, j.Fits levels) :
    (nodesToJson nodes).mapM (nodeWithin levels origin) = .ok nodes := by
  cases nodes with
  | nil => rfl
  | cons node rest =>
    obtain ⟨first, others⟩ := List.forall_mem_cons.mp fits
    rw [nodesToJson, List.mapM_cons, nodeWithin_takes levels origin node proper.1 first,
      nodes_take levels origin rest proper.2 others]
    rfl

theorem content_takes (levels : Nat) (origin : Origin) (content : List (String × List Node))
    (proper : Node.ContentProper content)
    (fits : ∀ entry ∈ contentToJson content, entry.2.Fits levels) :
    ∀ slot ∈ content,
      list (nodeWithin levels) origin (.array (nodesToJson slot.2)) = .ok slot.2 := by
  cases content with
  | nil => exact fun slot none => by cases none
  | cons slot rest =>
    obtain ⟨name, nodes⟩ := slot
    obtain ⟨first, others⟩ := List.forall_mem_cons.mp fits
    refine List.forall_mem_cons.mpr ⟨?_, content_takes levels origin rest proper.2 others⟩
    exact nodes_take levels origin nodes proper.1 first.items

end

theorem metadata_takes (metadata : Metadata) :
    Decoder.metadata origin metadata.toJson = .ok metadata :=
  record_takes (by simp) (.withDefault (strings_take metadata.dependencies) (.nil _))

theorem document_takes {document : Document} (proper : document.root.IsProper) :
    Decoder.document origin document.toJson = .ok document := by
  have whole := ((Json.each_iff _ _).mp (document.root.each_toJson proper)).1
  have root : node origin document.root.toJson = .ok document.root :=
    nodeWithin_takes _ origin document.root proper ⟨whole, Nat.lt_succ_self _⟩
  exact record_takes (by simp)
    (.mandatory root (.withDefault (metadata_takes document.metadata) (.nil _)))

end Decoder

theorem Document.each_toJson {document : Document} (proper : document.root.IsProper) :
    document.toJson.Each IsFiniteReal :=
  ⟨document.root.each_toJson proper,
    ⟨Json.each_ofStrings document.metadata.dependencies, trivial⟩, trivial⟩

/-- A document that is read from text is read again from what is written for it, on one line or on
many. -/
theorem Document.read_written {text : String} {document : Document}
    (ran : Decoder.document.run text = .ok document)
    (back : ∀ n ∈ document.toJson.numbers, n.IsFinite → n.ReadsBack)
    (below : document.toJson.height < Json.nestingLimit) :
    Decoder.document.run document.toJson.text = .ok document ∧
      Decoder.document.run document.toJson.prettyText = .ok document := by
  have proper := Decoder.isProper_run ran
  have within : Json.Within (some Json.nestingLimit) document.toJson.height := by
    rintro limit ⟨⟩
    exact below
  obtain ⟨compact, indented, -⟩ := Decoder.run_written (Decoder.document_takes proper)
    (Json.readable_of_each (Document.each_toJson proper) back) within
  exact ⟨compact, indented⟩

-- Fields stand in another order than they are written in, lists in place of objects, and defaults
-- are left out.
def scattered : Json :=
  .object
    [("metadata", .array [.ofStrings ["layout/grid"]]),
      ("root", .object
        [("children", .array
          [.array [.string "text", .number (.real (Binary64.ofRatio false 3 2))],
            .object
              [("slotSet", .object [("", .array
                  [.ofKind "text" [("value", .object [("expr", .string "item..label.")])]])]),
                ("component", .string "cards/card"), ("type", .string "custom"),
                ("for", .object
                  [("key", .object
                      [("params", .ofStrings ["x"]), ("type", .string "function"),
                        ("body", .array [.array [.string "return", .ofKind "binary"
                          [("right", .ofKind "number-literal" [("value", .ofNat 2)]),
                            ("left", .ofKind "identifier" [("name", .string "x")]),
                            ("operator", .string "strict-equal")]]])]),
                    ("expression", .string "items")]),
                ("if", .array [.string "a.b", .string "sometimes"])]]),
          ("props", .object [("b", .string "two"), ("a", .object [("expr", .string ".x")])]),
          ("tag", .string "ul"), ("type", .string "element")])]

def scatteredDocument : Document where
  root := .element
    { tag := "ul", props := some [("b", .text "two"), ("a", .bound ⟨"", ["x"]⟩)] }
    [.text (.number (Binary64.ofRatio false 3 2)),
      .custom
        { condition := some { path := ⟨"a", ["b"]⟩, modifier := "sometimes" }
          loop := some
            { path := ⟨"items", []⟩
              key := some (.function ["x"]
                [.returns (.strictEqual (.identifier "x") (.number (Binary64.ofNat 2)))]) } }
        [] "cards/card" [("", [.text (.bound ⟨"item", ["", "label", ""]⟩)])]]
  metadata := { dependencies := ["layout/grid"] }

theorem scattered_read_written :
    Decoder.document.run scattered.text = .ok scatteredDocument ∧
      Decoder.document.run scatteredDocument.toJson.text = .ok scatteredDocument ∧
        Decoder.document.run scatteredDocument.toJson.prettyText = .ok scatteredDocument := by
  have readable : scattered.Readable := by
    refine (Json.each_iff _ _).mpr ⟨by decide, ?_⟩
    unfold Json.ReadsAsItself
    decide
  have within : Json.Within (some Json.nestingLimit) scattered.height := by
    rintro limit ⟨⟩
    decide
  have ran : Decoder.document.run scattered.text = .ok scatteredDocument :=
    (Decoder.run_written rfl readable within).1
  have back : ∀ n ∈ scatteredDocument.toJson.numbers, n.ReadsBack := by
    unfold JsonNumber.ReadsBack
    decide
  exact ⟨ran, Document.read_written ran (fun n member _ => back n member) (by decide)⟩

end RenderCompiler
