import ShaderGraph.Proofs.Graph.Upstream
import ShaderGraph.Proofs.Template
import ShaderGraph.Proofs.Uuid
import ShaderGraph.Shader

/-!
# Exported shader code

The code of a node refers to the variables of the links that feed it, and these are declared behind
the code of their producers. Three parts of the graph have to tell the same for this to work: the
list of the input pin, from which the reference is made, the link table, from which the declaration
is made, and the order of the nodes. They do if the table and the pins agree.

## Main definitions

* `Shader.Part`, `Shader.parts` — what is written for the nodes, part by part
* `Shader.swizzle` — the components of a result that an output pin stands for
* `Shader.DeclaredBefore` — a link is declared once, between its producer and its consumer
* `Shader.Chained` — the parts fit together

## Main results

* `Shader.aliasLine_eq` — how the variable of a link is declared
* `Shader.export_eq` — the exported code is the text of the parts
* `Shader.nodup_links_parts` — no link is declared twice
* `Shader.declaredBefore_parts` — every link into an exported node is declared before it is used
* `Shader.chained_of_agrees` — the parts fit together in a graph that agrees and has no cycles
-/

namespace ShaderGraph.Shader

/-- A part of the exported code. -/
inductive Part where
  | heading (node : Node)
  | code (n : NodeId) (text : String)
  /-- The declaration of the variable of a link. -/
  | declaration (link : Link)

/-- The components of a result that an output pin stands for: those that its name lists, or all. -/
def swizzle (pin : String) : String :=
  if pin ∈ ["R", "G", "B", "A", "RG", "RGB", "RGBA"] then
    "." ++ String.ofList (pin.toList.map Char.toLower)
  else ""

/-- The text of a part. The variable of a node or a link is `var_` and the identifier. -/
def Part.text : Part → String
  | heading node => "\n// " ++ node.title ++ " (" ++ node.id.text ++ ")\n"
  | code _ text => if text.isEmpty then "" else Text.trimEnd text ++ "\n"
  | declaration link =>
    "auto var_" ++ link.id.text ++ " = var_" ++ link.source.node.text ++
      swizzle link.source.pin ++ ";\n"

/-- The node whose section begins with a part. -/
def Part.section? : Part → Option NodeId
  | heading node => some node.id
  | _ => none

/-- The link that a part declares. -/
def Part.link? : Part → Option Link
  | declaration link => some link
  | _ => none

/-- The links that are declared behind the code of a node. -/
def declaredLinks (g : Graph) (included : List NodeId) (node : Node) : List Link :=
  node.outputs.flatMap fun p => exportedLinks g included ⟨node.id, p.id⟩

/-- The parts of the section of a node. -/
def sectionParts (g : Graph) (included : List NodeId) (n : NodeId) : List Part :=
  match g.node? n, snippet? g n with
  | some node, some code =>
    .heading node :: .code n code :: (declaredLinks g included node).map .declaration
  | _, _ => []

/-- The parts of the code of everything that `root` depends on. -/
def parts (g : Graph) (root : NodeId) : List Part :=
  (g.dependencyOrder root).flatMap (sectionParts g (g.dependencyOrder root))

/-- The variable of a link is declared once, behind the code of its producer and before the section
of a node. -/
def DeclaredBefore (g : Graph) (ps : List Part) (link : Link) (node : Node) : Prop :=
  ∃ before after, ps = before ++ .declaration link :: after ∧
    (∃ code, snippet? g link.source.node = some code ∧
      .code link.source.node code ∈ before) ∧
    .heading node ∈ after ∧
    ∀ link', .declaration link' ∈ before ++ after →
      "var_" ++ link'.id.text ≠ "var_" ++ link.id.text

/-- The parts of the exported code fit together: every exported node has one section; what stands
for a linked input pin of an exported node is the variable of the link, which is declared once,
behind the code of the producer and before the section of the node; and no link into any other node
is declared. -/
structure Chained (g : Graph) (root : NodeId) : Prop where
  text : Shader.export g root =
    "// Material: " ++ g.name ++ "\n" ++ String.join ((parts g root).map Part.text)
  mem_root : root ∈ g.dependencyOrder root
  nodup : (g.dependencyOrder root).Nodup
  sections : (parts g root).filterMap Part.section? = g.dependencyOrder root
  declared : ∀ n ∈ g.dependencyOrder root, ∀ node, g.node? n = some node → ∀ p ∈ node.inputs,
    ∀ l ∈ p.links, inputText p = "var_" ++ l.text ∧
      ∃ link, g.link? l = some link ∧ link.id = l ∧ link.target = ⟨n, p.id⟩ ∧
        DeclaredBefore g (parts g root) link node
  exported : ∀ link, .declaration link ∈ parts g root → link.target.node ∈ g.dependencyOrder root

variable {g : Graph} {included : List NodeId} {root n : NodeId} {node : Node} {p : Pin} {l : LinkId}
  {link : Link} {code : String}

/-! ### Variables and their declarations -/

/-- An identifier is written in letters and digits alone. -/
theorem sanitize_simple (u : Uuid) : sanitize u.simple = u.simple := by
  have hchars : (u.simple.toList.map fun c => if c.isAlphanum then c else '_') =
      u.simple.toList := by
    refine (List.map_congr_left fun c hc => ?_).trans (List.map_id _)
    rw [Uuid.simple, String.toList_ofList] at hc
    exact if_pos (Uuid.isAlphanum_of_mem_fixedHex hc)
  rw [sanitize, hchars, String.ofList_toList]

theorem linkVariable_eq (l : LinkId) : linkVariable l = "var_" ++ l.text :=
  congrArg ("var_" ++ ·) (sanitize_simple l.uuid)

theorem nodeVariable_eq (n : NodeId) : nodeVariable n = "var_" ++ n.text :=
  congrArg ("var_" ++ ·) (sanitize_simple n.uuid)

theorem linkVariable_injective : Function.Injective linkVariable := by
  intro l l' he
  rw [linkVariable_eq, linkVariable_eq] at he
  exact LinkId.text_injective ((String.append_right_inj _).mp he)

/-- The table of selections has the components that the names of the pins list. -/
theorem selection_eq_swizzle (pin : String) : selection pin = swizzle pin := by
  by_cases hpin : pin ∈ ["R", "G", "B", "A", "RG", "RGB", "RGBA"]
  · have hall : ∀ q ∈ ["R", "G", "B", "A", "RG", "RGB", "RGBA"], selection q = swizzle q := by
      decide
    exact hall pin hpin
  · have hkeys : ∀ e ∈ selections, (pin != e.1) = true := fun e he =>
      bne_iff_ne.mpr fun hname => hpin (hname ▸ List.mem_map_of_mem (f := Prod.fst) he)
    rw [swizzle, if_neg hpin, selection, List.lookup_eq_none_iff.mpr hkeys, Option.getD_none]

/-- The variable of a link is declared as that of its producer, or as the components of it for which
the output pin stands. -/
theorem aliasLine_eq (n : NodeId) (pin : String) (l : LinkId) : aliasLine n pin l =
    "auto var_" ++ l.text ++ " = var_" ++ n.text ++ swizzle pin ++ ";\n" := by
  have hauto : "auto " ++ "var_" = "auto var_" := rfl
  have hequal : " = " ++ "var_" = " = var_" := rfl
  rw [aliasLine, linkVariable_eq, nodeVariable_eq, selection_eq_swizzle, ← hauto, ← hequal]
  simp only [String.append_assoc]

/-! ### The text of the parts -/

theorem mem_exportedLinks_iff {r : PinRef} :
    link ∈ exportedLinks g included r ↔
      link ∈ g.links.values ∧ link.source = r ∧ link.target.node ∈ included := by
  rw [exportedLinks, Graph.linksFrom, List.mem_filter, List.mem_filter, and_assoc, beq_iff_eq,
    decide_eq_true_iff]

/-- A link that leaves a pin is declared by the address of the pin. -/
theorem aliases_eq : aliases g included node =
    String.join (((declaredLinks g included node).map Part.declaration).map Part.text) := by
  rw [aliases, declaredLinks, List.map_map, List.map_flatMap]
  refine congrArg (fun f => String.join (node.outputs.flatMap f)) (funext fun p => ?_)
  refine List.map_congr_left fun link hlink => ?_
  have hsource : ⟨node.id, p.id⟩ = link.source := (mem_exportedLinks_iff.mp hlink).2.1.symm
  obtain ⟨hnode, hpin⟩ := PinRef.mk.inj hsource
  rw [hnode, hpin]
  exact aliasLine_eq _ _ _

theorem join_sectionParts :
    String.join ((sectionParts g included n).map Part.text) = nodeSection g included n := by
  rw [sectionParts, nodeSection]
  cases g.node? n with
  | none => exact String.join_nil
  | some node =>
    cases snippet? g n with
    | none => exact String.join_nil
    | some code =>
      dsimp only
      rw [List.map_cons, List.map_cons, String.join_cons, String.join_cons, ← aliases_eq]
      exact String.append_assoc.symm

/-- The exported code is its first line and the text of the parts. -/
theorem export_eq : Shader.export g root =
    "// Material: " ++ g.name ++ "\n" ++ String.join ((parts g root).map Part.text) := by
  have hjoin (ns : List NodeId) : String.join (ns.map (nodeSection g (g.dependencyOrder root))) =
      String.join ((ns.flatMap (sectionParts g (g.dependencyOrder root))).map Part.text) := by
    induction ns with
    | nil => rfl
    | cons n ns ih =>
      rw [List.map_cons, String.join_cons, ih, List.flatMap_cons, List.map_append,
        String.join_append, join_sectionParts]
  exact congrArg ("// Material: " ++ g.name ++ "\n" ++ ·) (hjoin _)

/-! ### What is written for a node -/

theorem sectionParts_eq (hn : g.node? n = some node) (hcode : snippet? g n = some code) :
    sectionParts g included n = .heading node :: .code n code ::
      (declaredLinks g included node).map .declaration := by
  rw [sectionParts, hn, hcode]

/-- A node with a definition has code. -/
theorem exists_snippet?_eq_some (hn : g.node? n = some node)
    (hd : ∃ d, g.definition? node = some d) : ∃ code, snippet? g n = some code := by
  obtain ⟨d, hd⟩ := hd
  rw [snippet?, hn, Option.bind_eq_bind, Option.bind_some, hd]
  exact ⟨_, rfl⟩

theorem mem_declaredLinks_iff :
    link ∈ declaredLinks g included node ↔ link ∈ g.links.values ∧
      link.target.node ∈ included ∧ ∃ p ∈ node.outputs, link.source = ⟨node.id, p.id⟩ := by
  simp only [declaredLinks, List.mem_flatMap, mem_exportedLinks_iff]
  constructor
  · rintro ⟨p, hp, hmem, hsource, htarget⟩
    exact ⟨hmem, htarget, p, hp, hsource⟩
  · rintro ⟨hmem, htarget, p, hp, hsource⟩
    exact ⟨p, hp, hmem, hsource, htarget⟩

/-- What is declared is a link of the table into an exported node. -/
theorem mem_links_of_mem_parts (h : .declaration link ∈ parts g root) :
    link ∈ g.links.values ∧ link.target.node ∈ g.dependencyOrder root := by
  obtain ⟨n, -, hmem⟩ := List.mem_flatMap.mp h
  rw [sectionParts] at hmem
  split at hmem
  · obtain ⟨link', hlink', he⟩ : ∃ link' ∈ declaredLinks g _ _, link' = link := by
      simpa using hmem
    obtain ⟨hvalues, htarget, -⟩ := mem_declaredLinks_iff.mp hlink'
    exact he ▸ ⟨hvalues, htarget⟩
  · cases hmem

/-- A list that is joined from others has no repetition if each of them has none and the place of
an element can be read off it. -/
theorem nodup_flatMap_of_key {α β : Type} {ks : List α} {f : α → List β} (key : β → α)
    (hks : ks.Nodup) (hf : ∀ k ∈ ks, (f k).Nodup) (hkey : ∀ k ∈ ks, ∀ b ∈ f k, key b = k) :
    (ks.flatMap f).Nodup := by
  rw [List.nodup_flatMap]
  refine ⟨hf, hks.imp_of_mem fun {a b} ha hb hne => ?_⟩
  rintro c hca hcb
  exact hne ((hkey a ha c hca).symm.trans (hkey b hb c hcb))

/-- The links behind a node are distinct if no link leaves two pins of one name. -/
theorem nodup_declaredLinks_iff (h : ∀ {l link}, g.link? l = some link → link.id = l) :
    (declaredLinks g included node).Nodup ↔
      node.outputs.Pairwise fun p q =>
        p.id = q.id → exportedLinks g included ⟨node.id, p.id⟩ = [] := by
  have hlinks : g.links.values.Nodup := (Graph.nodup_map_id h).of_map
  have heach (p : Pin) : (exportedLinks g included ⟨node.id, p.id⟩).Nodup :=
    (hlinks.filter _).filter _
  -- A link names the pin that it leaves, so what two pins share they share by their names.
  have hpair (p q : Pin) : List.Disjoint (exportedLinks g included ⟨node.id, p.id⟩)
      (exportedLinks g included ⟨node.id, q.id⟩) ↔
        (p.id = q.id → exportedLinks g included ⟨node.id, p.id⟩ = []) := by
    constructor
    · intro hdisjoint he
      rw [← he] at hdisjoint
      exact List.eq_nil_iff_forall_not_mem.mpr fun link hmem => hdisjoint hmem hmem
    · intro hnil link hp hq
      have hsource := (mem_exportedLinks_iff.mp hp).2.1.symm.trans (mem_exportedLinks_iff.mp hq).2.1
      rw [hnil (congrArg PinRef.pin hsource)] at hp
      cases hp
  rw [declaredLinks, List.nodup_flatMap]
  refine (and_iff_right fun p _ => heach p).trans ?_
  exact ⟨fun hall => hall.imp fun {p q} => (hpair p q).mp,
    fun hall => hall.imp fun {p q} => (hpair p q).mpr⟩

theorem filterMap_link?_sectionParts : (sectionParts g included n).filterMap Part.link? =
    match g.node? n, snippet? g n with
    | some node, some _ => declaredLinks g included node
    | _, _ => [] := by
  rw [sectionParts]
  cases g.node? n with
  | none => rfl
  | some node =>
    cases snippet? g n with
    | none => rfl
    | some code =>
      dsimp only
      rw [List.filterMap_cons_none (by rfl), List.filterMap_cons_none (by rfl), List.filterMap_map]
      exact List.filterMap_some

/-- No link is declared twice if those behind each node are distinct, as they leave that node. -/
theorem nodup_links_parts_iff (h : ∀ {n node}, g.node? n = some node → node.id = n) :
    ((parts g root).filterMap Part.link?).Nodup ↔ ∀ n ∈ g.dependencyOrder root,
      ((sectionParts g (g.dependencyOrder root) n).filterMap Part.link?).Nodup := by
  rw [parts, List.filterMap_flatMap]
  refine ⟨fun hall => (List.nodup_flatMap.mp hall).1, fun hall => ?_⟩
  refine nodup_flatMap_of_key (fun link => link.source.node) Graph.nodup_dependencyOrder hall
    fun n _ link hlink => ?_
  rw [filterMap_link?_sectionParts] at hlink
  split at hlink
  · rename_i hn _
    obtain ⟨-, -, p, -, hsource⟩ := mem_declaredLinks_iff.mp hlink
    rw [hsource]
    exact h hn
  · cases hlink

/-- No link is declared twice. -/
theorem nodup_links_parts (h : g.Agrees) (hp : g.WellPinned) :
    ((parts g root).filterMap Part.link?).Nodup := by
  rw [nodup_links_parts_iff h.node_id]
  intro n _
  rw [filterMap_link?_sectionParts]
  split
  · rename_i hn _
    rw [nodup_declaredLinks_iff h.link_id]
    exact (List.pairwise_map.mp (hp hn).nodup_outputs).imp fun hne he => absurd he hne
  · exact List.nodup_nil

/-! ### Sections in order -/

/-- Every exported node has one section, in the order of the nodes. -/
theorem filterMap_section?_parts (h : g.Agrees) (hacyclic : g.Acyclic)
    (hd : ∀ ⦃n node⦄, g.node? n = some node → ∃ d, g.definition? node = some d) :
    (parts g root).filterMap Part.section? = g.dependencyOrder root := by
  rw [parts, List.filterMap_flatMap]
  have hsection (n : NodeId) (hn : n ∈ g.dependencyOrder root) :
      (sectionParts g (g.dependencyOrder root) n).filterMap Part.section? = [n] := by
    obtain ⟨node, hnode⟩ := (h.ordered_dependencyOrder hacyclic root).node n hn
    obtain ⟨code, hcode⟩ := exists_snippet?_eq_some hnode (hd hnode)
    have hrest : ((declaredLinks g (g.dependencyOrder root) node).map
        Part.declaration).filterMap Part.section? = [] := by
      rw [List.filterMap_map, List.filterMap_eq_nil_iff]
      exact fun _ _ => rfl
    have hsome : (Part.heading node).section? = some n := congrArg some (h.node_id hnode)
    rw [sectionParts_eq hnode hcode, List.filterMap_cons_some hsome, List.filterMap_cons_none rfl,
      hrest]
  rw [List.flatMap_congr hsection, List.flatMap_singleton']

/-! ### Declarations before uses -/

/-- The variable of every link into an exported node is declared once, behind the code of its
producer and before the section of the node. -/
theorem declaredBefore_parts (h : g.Agrees) (hacyclic : g.Acyclic) (hpins : g.WellPinned)
    (hd : ∀ ⦃n node⦄, g.node? n = some node → ∃ d, g.definition? node = some d)
    (hlink : g.link? l = some link) (htarget : link.target.node ∈ g.dependencyOrder root)
    (hn : g.node? link.target.node = some node) : DeclaredBefore g (parts g root) link node := by
  have hvalues : link ∈ g.links.values := Table.mem_values_iff.mpr ⟨l, hlink⟩
  obtain ⟨first, between, last, horder⟩ :=
    (h.ordered_dependencyOrder hacyclic root).exists_eq_append htarget ⟨link, hvalues, rfl, rfl⟩
  -- The producer is a node with code, and the link leaves one of its outputs.
  obtain ⟨p, hp⟩ := h.source hlink
  obtain ⟨producer, hproducer, hp⟩ := Option.bind_eq_some_iff.mp hp
  obtain ⟨code, hcode⟩ := exists_snippet?_eq_some hproducer (hd hproducer)
  obtain ⟨code', hcode'⟩ := exists_snippet?_eq_some hn (hd hn)
  have hdeclared : link ∈ declaredLinks g (g.dependencyOrder root) producer := by
    have hid : p.id = link.source.pin := by simpa using List.find?_some hp
    refine mem_declaredLinks_iff.mpr
      ⟨hvalues, htarget, p, List.mem_of_find?_eq_some hp, ?_⟩
    rw [h.node_id hproducer, hid]
  obtain ⟨earlier, later, hsplit⟩ := List.append_of_mem hdeclared
  have hproducerParts : sectionParts g (g.dependencyOrder root) link.source.node =
      (.heading producer :: .code link.source.node code :: earlier.map .declaration) ++
        .declaration link :: later.map .declaration := by
    rw [sectionParts_eq hproducer hcode, hsplit, List.map_append, List.map_cons]
    rfl
  let before := first.flatMap (sectionParts g (g.dependencyOrder root)) ++
    (.heading producer :: .code link.source.node code :: earlier.map .declaration)
  let after := later.map .declaration ++
    (between ++ link.target.node :: last).flatMap (sectionParts g (g.dependencyOrder root))
  have hparts : parts g root = before ++ .declaration link :: after := by
    have hflat (f : NodeId → List Part) : (g.dependencyOrder root).flatMap f =
        first.flatMap f ++ (f link.source.node ++
          (between ++ link.target.node :: last).flatMap f) := by
      rw [horder, List.flatMap_append, List.flatMap_cons]
    rw [parts, hflat, hproducerParts, List.append_assoc, List.append_assoc]
    rfl
  refine ⟨before, after, hparts, ⟨code, hcode, ?_⟩, ?_, fun link' hlink' he => ?_⟩
  · exact List.mem_append_right _ (List.mem_cons_of_mem _ List.mem_cons_self)
  · refine List.mem_append_right _ (List.mem_flatMap.mpr ⟨link.target.node, by simp, ?_⟩)
    rw [sectionParts_eq hn hcode']
    exact List.mem_cons_self
  -- A second declaration of the variable would be one of the same link.
  · have hmem : .declaration link' ∈ parts g root := by
      rw [hparts]
      rcases List.mem_append.mp hlink' with hmem | hmem
      · exact List.mem_append_left _ hmem
      · exact List.mem_append_right _ (List.mem_cons_of_mem _ hmem)
    have hlink'' := (Graph.mem_values_links h.link_id).mp (mem_links_of_mem_parts hmem).1
    rw [LinkId.text_injective ((String.append_right_inj _).mp he), h.link_id hlink,
      hlink] at hlink''
    obtain rfl := Option.some_inj.mp hlink''
    have hself : (Part.declaration link).link? = some link := rfl
    have hnodup : ((parts g root).filterMap Part.link?).Nodup := nodup_links_parts h hpins
    rw [hparts, List.filterMap_append, List.filterMap_cons_some hself,
      List.nodup_middle, List.nodup_cons, ← List.filterMap_append] at hnodup
    exact hnodup.1 (List.mem_filterMap.mpr ⟨_, hlink', rfl⟩)

/-- The parts of the exported code of a graph that agrees, has no cycles and knows the definitions
of its nodes fit together. -/
theorem chained_of_agrees (h : g.Agrees) (hacyclic : g.Acyclic) (hpins : g.WellPinned)
    (hd : ∀ ⦃n node⦄, g.node? n = some node → ∃ d, g.definition? node = some d)
    (hroot : ∃ node, g.node? root = some node) : Chained g root where
  text := export_eq
  mem_root := by
    obtain ⟨node, hroot⟩ := hroot
    exact h.mem_dependencyOrder_self hroot
  nodup := (h.ordered_dependencyOrder hacyclic root).nodup
  sections := filterMap_section?_parts h hacyclic hd
  declared n hexported node hn p hp l hl := by
    refine ⟨?_, ?_⟩
    -- The pin lists no other link.
    · match hlinks : p.links with
      | [] => rw [hlinks] at hl; cases hl
      | [_] =>
        rw [hlinks, List.mem_singleton] at hl
        rw [inputText, hlinks, hl]
        exact linkVariable_eq _
      | _ :: _ :: _ =>
        have hlength := h.length_input hn hp
        rw [hlinks] at hlength
        simp at hlength
    · obtain ⟨link, hlink, htarget⟩ := (h.mem_input hn hp).mp hl
      obtain rfl : link.target.node = n := by rw [htarget]
      exact ⟨link, hlink, h.link_id hlink, htarget,
        declaredBefore_parts h hacyclic hpins hd hlink hexported hn⟩
  exported link hlink := (mem_links_of_mem_parts hlink).2

/-- A texture whose colours are multiplied by its red part; the green part goes elsewhere. -/
def splitTexture : Graph :=
  ((((((Graph.empty "split texture" .material).apply
    (.addNode "TextureSample" ⟨0, 0⟩ ⟨⟨1⟩⟩)).apply
    (.addNode "Multiply" ⟨1, 0⟩ ⟨⟨2⟩⟩)).apply
    (.addNode "Reroute" ⟨1, 1⟩ ⟨⟨3⟩⟩)).apply
    (.connect ⟨⟨⟨1⟩⟩, "RGB"⟩ ⟨⟨⟨2⟩⟩, "A"⟩ ⟨⟨4⟩⟩)).apply
    (.connect ⟨⟨⟨1⟩⟩, "R"⟩ ⟨⟨⟨2⟩⟩, "B"⟩ ⟨⟨5⟩⟩)).apply
    (.connect ⟨⟨⟨1⟩⟩, "G"⟩ ⟨⟨⟨3⟩⟩, "Input"⟩ ⟨⟨6⟩⟩)

theorem authored_splitTexture : Graph.Authored .material splitTexture :=
  ((((((Graph.Created.empty "split texture").authored.apply (by decide)).apply (by decide)).apply
    (by decide)).apply (by decide)).apply (by decide)).apply (by decide)

/-- The code of the product: two of the three links are declared, each with the components for
which its pin stands. -/
def splitTextureCode : String :=
  "// Material: split texture\n" ++
  "\n// Texture Sample (00000000000000000000000000000001)\n" ++
  "float4 var_00000000000000000000000000000001 = " ++
    "Texture2DSample(default_checker, default_checkerSampler, float2(0,0));\n" ++
  "auto var_00000000000000000000000000000004 = var_00000000000000000000000000000001.rgb;\n" ++
  "auto var_00000000000000000000000000000005 = var_00000000000000000000000000000001.r;\n" ++
  "\n// Multiply (00000000000000000000000000000002)\n" ++
  "auto var_00000000000000000000000000000002 = " ++
    "var_00000000000000000000000000000004 * var_00000000000000000000000000000005;\n"

theorem export_splitTexture : Shader.export splitTexture ⟨⟨2⟩⟩ = splitTextureCode := by
  have horder : splitTexture.dependencyOrder ⟨⟨2⟩⟩ = [⟨⟨1⟩⟩, ⟨⟨2⟩⟩] := by decide
  have hsample : snippet? splitTexture ⟨⟨1⟩⟩ = some (Template.substitute
      (Catalog.angled Catalog.sampleTemplate)
      fun name => (splitTexture.node? ⟨⟨1⟩⟩).bind (placeholderText? · name)) := rfl
  have hproduct : snippet? splitTexture ⟨⟨2⟩⟩ = some (Template.substitute
      (Catalog.angled "auto ⟨OUTPUT⟩ = ⟨A⟩ * ⟨B⟩;")
      fun name => (splitTexture.node? ⟨⟨2⟩⟩).bind (placeholderText? · name)) := rfl
  have hnode (n : NodeId) (h : (splitTexture.node? n).isSome) :
      splitTexture.node? n = some ((splitTexture.node? n).get h) := (Option.some_get h).symm
  rw [export_eq, parts, horder, List.flatMap_cons, List.flatMap_cons, List.flatMap_nil,
    sectionParts_eq (hnode _ (by decide)) hsample, sectionParts_eq (hnode _ (by decide)) hproduct]
  -- What `trimEnd` takes apart is a list of characters already.
  simp only [List.map_append, List.map_cons, List.map_nil, Part.text, Template.substitute_eq,
    Catalog.toList_angled, Text.trimEnd, String.toList_ofList]
  decide +kernel

/-- The code of the product has two sections and declares the links into the product alone. -/
theorem chained_of_agrees_splitTexture :
    splitTexture.links.keys = [⟨⟨4⟩⟩, ⟨⟨5⟩⟩, ⟨⟨6⟩⟩] ∧
      splitTexture.dependencyOrder ⟨⟨2⟩⟩ = [⟨⟨1⟩⟩, ⟨⟨2⟩⟩] ∧
      Shader.export splitTexture ⟨⟨2⟩⟩ = splitTextureCode ∧
      splitTexture.Agrees ∧ splitTexture.Acyclic ∧ splitTexture.WellPinned ∧
      (∀ ⦃n node⦄, splitTexture.node? n = some node →
        ∃ d, splitTexture.definition? node = some d) ∧
      Chained splitTexture ⟨⟨2⟩⟩ := by
  have hkept := authored_splitTexture.kept Registry.uniquePins_material
  have hpins := hkept.wellPinned Registry.uniquePins_material
  have hacyclic : splitTexture.Acyclic :=
    Graph.acyclic_of_rank (fun n => n.uuid.value.toNat) (by decide)
  have hfiled : splitTexture.registry.Filed := hkept.registry ▸ Registry.built_material.filed
  have hd ⦃n : NodeId⦄ ⦃node : Node⦄ (hn : splitTexture.node? n = some node) :
      ∃ d, splitTexture.definition? node = some d := by
    obtain ⟨d, hd, -⟩ := hkept.instantiated.exists_definition? hfiled hn
    exact ⟨d, hd⟩
  exact ⟨by decide, by decide, export_splitTexture, hkept.wellLinked.agrees, hacyclic, hpins, hd,
    chained_of_agrees hkept.wellLinked.agrees hacyclic hpins hd ⟨_, rfl⟩⟩

end ShaderGraph.Shader
