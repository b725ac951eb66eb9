import Mathlib.Data.List.Sort
import Mathlib.Data.String.Basic
import Runbook.Proofs.Fields
import Runbook.Proofs.Session.Opening
import Runbook.Session.Perform

set_option autoImplicit false
set_option relaxedAutoImplicit false

/-!
Which variable a name means in a request. The variables of the request, of its contexts, of the
session and of the contexts behind the session make up one list of layers, and the first layer that
declares a name decides. Of the explicit contexts only the first entry of each context counts, and a
default context that is listed explicitly, in whatever variant, does not count at all.
-/

namespace Runbook

open Runbook.Files

/-- What a name means in a list of layers: its value in the first layer that declares it, be it
null, and null if there is none. -/
def firstValue (layers : List Fields) (name : String) : Value :=
  match layers.find? fun layer => decide (name ∈ Fields.keys layer) with
  | some layer => (Fields.get? layer name).getD .null
  | none => .null

/-- The part of the name of a context before the first slash. -/
def contextPart (name : String) : String := String.ofList (name.toList.takeWhile (· != '/'))

/-- The entries of a list of contexts before which there is none of the same context. -/
def leading (names : List String) : List String :=
  (names.zipIdx.filter fun entry =>
    (names.take entry.2).all fun earlier => contextPart earlier != contextPart entry.1).map (·.1)

namespace Project

/-- The variables that a context variant declares; without a file it declares none. -/
def declared (p : Project) (t : Tree) (name : String) : Fields :=
  (p.variantVars t name).toOption.getD []

/-- The contexts that stand behind every session: those of the settings, or else all directories of
contexts that are not hidden, in order of their names. -/
def standing (p : Project) (t : Tree) : List String :=
  match p.settings.defaultContexts with
  | some names => names
  | none =>
    ((t.directoriesOf p.contextsPath).filter fun name =>
      name.toList.head? != some '.').insertionSort fun a b => a ≤ b

end Project

/-- The layers of the contexts of a session: the explicit ones that count, and the default ones of
which none is listed explicitly. -/
def contextLayers (p : Project) (t : Tree) (contexts : List String) : List Fields :=
  (leading contexts).map (p.declared t) ++
    ((p.standing t).filter fun name =>
      contexts.all fun other => contextPart other != contextPart name).map (p.declared t)

/-- The layers of a request, the first one foremost: its variables, its contexts as they are now,
the variables of the session, and the contexts of the session as they were when it was opened. -/
def requestLayers (p : Project) (opened now : Tree) (contexts : List String) (vars : Fields)
    (o : BuildOptions) : List Fields :=
  o.vars :: o.contexts.map (p.declared now) ++ vars :: contextLayers p opened contexts

namespace Layers

open Project (firstOfEach)

private theorem firstValue_eq_findSome? (layers : List Fields) (name : String) :
    firstValue layers name = (layers.findSome? (Fields.get? · name)).getD .null := by
  induction layers with
  | nil => rfl
  | cons layer rest ih =>
    by_cases h : name ∈ Fields.keys layer
    · obtain ⟨v, hv⟩ := Option.isSome_iff_exists.mp ((Fields.isSome_get?_iff layer name).mpr h)
      simp [firstValue, h, hv]
    · have hv := (Fields.get?_eq_none_iff layer name).mpr h
      simpa [firstValue, h, hv] using ih

private theorem isSome_findSome?_iff (layers : List Fields) (name : String) :
    (layers.findSome? (Fields.get? · name)).isSome = true ↔
      ∃ layer ∈ layers, name ∈ Fields.keys layer := by
  simp [List.findSome?_isSome_iff, Fields.isSome_get?_iff]

private theorem findIn?_append (first rest : List Scope) (name : String) :
    Scope.findIn? (first ++ rest) name =
      (Scope.findIn? first name).or (Scope.findIn? rest name) := by
  induction first with
  | nil => simp
  | cons s first ih => simp [ih, Option.or_assoc]

private theorem findIn?_roots (layers : List Fields) (name : String) :
    Scope.findIn? (layers.map fun layer => .node layer []) name =
      layers.findSome? (Fields.get? · name) := by
  induction layers with
  | nil => simp
  | cons layer rest ih =>
    rw [List.map_cons, Scope.findIn?_cons, ih, List.findSome?_cons]
    cases h : Fields.get? layer name <;> simp [h]

/-- A walk through the scope of a request meets its layers one after the other. -/
private theorem find?_layered (own vars : Fields) (front behind : List Fields) (name : String) :
    Scope.find? (.node own (front.map (fun layer => .node layer []) ++
      [.node vars (behind.map fun layer => .node layer [])])) name =
      (own :: front ++ vars :: behind).findSome? (Fields.get? · name) := by
  rw [Scope.find?_node, findIn?_append, findIn?_roots, Scope.findIn?_cons, Scope.find?_node,
    findIn?_roots, Scope.findIn?_nil, Option.or_none, List.findSome?_append, List.findSome?_cons,
    List.findSome?_cons]
  cases Fields.get? own name <;> cases Fields.get? vars name <;> simp

private theorem contextOf_eq_contextPart (name : String) : contextOf name = contextPart name := by
  unfold contextOf splitContextName Text.splitOnce? contextPart
  cases h : name.toList.dropWhile (· != '/') with
  | nil =>
    have whole := List.takeWhile_append_dropWhile (p := (· != '/')) (l := name.toList)
    rw [h, List.append_nil] at whole
    simp [whole]
  | cons slash rest => cases rest <;> rfl

/-- The entries kept behind others are those that none of the others nor an earlier one forestalls;
the induction is on the list, with the entries that were passed collected in front. -/
private theorem filter_firstOfEach (before names : List String) :
    ((firstOfEach names).filter fun name =>
        before.all fun other => contextPart other != contextPart name)
      = ((names.zipIdx before.length).filter fun entry =>
          ((before ++ names).take entry.2).all fun earlier =>
            contextPart earlier != contextPart entry.1).map (·.1) := by
  induction names generalizing before with
  | nil => rfl
  | cons name names ih =>
    have passed := ih (before ++ [name])
    simp only [List.length_append, List.length_singleton, List.append_assoc, List.singleton_append,
      List.all_append, List.all_cons, List.all_nil, Bool.and_true] at passed
    have behind :
        (((firstOfEach names).filter fun other => contextOf other != contextOf name).filter
          fun other => before.all fun earlier => contextPart earlier != contextPart other) =
        (firstOfEach names).filter fun other =>
          (before.all fun earlier => contextPart earlier != contextPart other) &&
            contextPart name != contextPart other := by
      rw [List.filter_filter]
      congr 1
      funext other
      rw [contextOf_eq_contextPart, contextOf_eq_contextPart, bne_comm]
    rw [firstOfEach, List.filter_cons, List.zipIdx_cons, List.filter_cons, behind, passed]
    simp only [List.take_left']
    split <;> rfl

theorem firstOfEach_eq_leading (names : List String) :
    firstOfEach names = leading names := by
  have h := filter_firstOfEach [] names
  simpa [leading] using h

private theorem defaultContexts_eq_standing (p : Project) (t : Tree) :
    p.defaultContexts t = p.standing t := by
  unfold Project.defaultContexts Project.standing
  cases p.settings.defaultContexts with
  | some names => rfl
  | none =>
    have sorted := List.mergeSort_eq_insertionSort (fun a b : String => a ≤ b)
      ((t.directoriesOf p.contextsPath).filter fun name => name.toList.head? != some '.')
    simpa [Project.contextNames, sortNames, isHidden, bne] using sorted

private theorem remainingDefaults_eq (p : Project) (t : Tree) (contexts : List String) :
    p.remainingDefaults t contexts = (p.standing t).filter fun name =>
      contexts.all fun other => contextPart other != contextPart name := by
  unfold Project.remainingDefaults
  rw [defaultContexts_eq_standing]
  congr 1
  funext name
  induction contexts with
  | nil => rfl
  | cons other rest ih =>
    rw [List.map_cons, List.contains_cons, Bool.not_or, ih, List.all_cons, contextOf_eq_contextPart,
      contextOf_eq_contextPart, bne_comm, bne]

private theorem contextScope_eq_ok (p : Project) (t : Tree) (name : String) (s : Scope)
    (h : p.contextScope t name = .ok s) : s = .node (p.declared t name) [] := by
  obtain ⟨fields, hfields, rfl⟩ := Outcome.map_eq_ok.mp h
  have there : t.isFile (p.variantFile name) = true := by
    by_contra missing
    simp [Project.contextVariables, missing] at hfields
  simp only [Project.contextVariables, there, if_true] at hfields
  simp only [Project.declared, Project.variantVars, there, if_true, hfields]
  rfl

private theorem variantScope_eq_ok (p : Project) (t : Tree) (name : String) (s : Scope)
    (h : (do return Scope.node (← p.variantVars t name) [] : Except Error Scope) = .ok s) :
    s = .node (p.declared t name) [] := by
  obtain ⟨fields, hfields, hs⟩ := Outcome.bind_eq_ok.mp h
  obtain rfl := Except.ok.inj hs
  simp only [Project.declared, hfields]
  rfl

private theorem parents_eq {p : Project} {t : Tree} {contexts : List String} {parents : List Scope}
    (h : p.composeContexts t contexts = .ok parents) :
    parents = (contextLayers p t contexts).map fun layer => .node layer [] := by
  obtain ⟨first, hfirst, h⟩ := Outcome.bind_eq_ok.mp h
  obtain ⟨rest, hrest, hparents⟩ := Outcome.bind_eq_ok.mp h
  obtain rfl := Except.ok.inj hparents
  rw [Outcome.eq_map_of_mapM_eq_ok (contextScope_eq_ok p t) hfirst,
    Outcome.eq_map_of_mapM_eq_ok (variantScope_eq_ok p t) hrest, firstOfEach_eq_leading,
    remainingDefaults_eq]
  simp [contextLayers, Function.comp_def]

end Layers

/-- A name means in a request what the first of its layers that declares the name says, and it means
a variable if and only if some layer declares it. -/
theorem requestScope_precedence {p : Project} {opened now : Tree} {contexts : List String}
    {vars : Fields} {s : Session} {o : BuildOptions} {scope : Scope}
    (session : Session.Opened p opened contexts vars s)
    (built : s.requestScope now o = .ok scope) (name : String) :
    scope.resolve name = firstValue (requestLayers p opened now contexts vars o) name ∧
      (scope.has name = true ↔
        ∃ layer ∈ requestLayers p opened now contexts vars o, name ∈ Fields.keys layer) := by
  have composed := session.composed
  obtain rfl := composed.vars
  obtain ⟨front, hfront, hscope⟩ := Outcome.bind_eq_ok.mp built
  obtain rfl := Except.ok.inj hscope
  rw [composed.project] at hfront
  have front_eq := Outcome.eq_map_of_mapM_eq_ok (Layers.contextScope_eq_ok p now) hfront
  have parents_eq := Layers.parents_eq composed.parents
  have found := Layers.find?_layered o.vars s.vars (o.contexts.map (p.declared now))
    (contextLayers p opened contexts) name
  rw [← parents_eq, List.map_map] at found
  have met : (Scope.node o.vars (front ++ [s.scope])).find? name =
      (requestLayers p opened now contexts s.vars o).findSome? (Fields.get? · name) := by
    rw [front_eq]
    exact found
  unfold Scope.resolve Scope.has
  rw [met, Layers.firstValue_eq_findSome?, Layers.isSome_findSome?_iff]
  exact ⟨rfl, Iff.rfl⟩

/-- A project with two contexts, one of them of two variants. -/
private def sampleTree : Tree :=
  let variant (text : String) : Node := .file (Text.encode text)
  .directory [("p", .directory [("contexts", .directory [
    ("user", .directory [("default.yaml", variant "base: user\nname: amelia\nrole: admin\n")]),
    ("api", .directory [("default.yaml", variant "base: live\nretries: 3\n"),
      ("sandbox.yaml", variant "base: test\nname: null\n")])])])]

/-- The first entry of a context decides its variant, a null in front hides what is behind it, and a
default context that is listed explicitly does not come back. -/
theorem requestScope_precedence_sample :
    let p : Project := ⟨⟨"/p"⟩, { Settings.standard with defaultContexts := some ["api", "user"] }⟩
    ∃ s scope, Session.Opened p sampleTree ["api/sandbox", "api"] [("token", .str "abc")] s ∧
      s.requestScope sampleTree ⟨[], [("page", .str "2")]⟩ = .ok scope ∧
      scope.resolve "page" = .str "2" ∧ scope.resolve "token" = .str "abc" ∧
      scope.resolve "base" = .str "test" ∧ scope.resolve "name" = .null ∧
      scope.has "name" = true ∧ scope.resolve "role" = .str "admin" ∧
      scope.has "retries" = false := by
  intro p
  have opens : ∃ scope, ((Session.new p sampleTree "s" ["api/sandbox", "api"]
      [("token", .str "abc")]) >>= fun s =>
      s.requestScope sampleTree ⟨[], [("page", .str "2")]⟩) = .ok scope :=
    Outcome.exists_of_isOk (by decide +kernel)
  obtain ⟨scope, opens⟩ := opens
  obtain ⟨s, new, built⟩ := Outcome.bind_eq_ok.mp opens
  have opened := Session.Opened.new "s" new
  have precedence := requestScope_precedence opened built
  refine ⟨s, scope, opened, built, ?_, ?_, ?_, ?_, ?_, ?_, ?_⟩
  · exact (precedence "page").1.trans (by decide +kernel)
  · exact (precedence "token").1.trans (by decide +kernel)
  · exact (precedence "base").1.trans (by decide +kernel)
  · exact (precedence "name").1.trans (by decide +kernel)
  · exact (precedence "name").2.mpr (by decide +kernel)
  · exact (precedence "role").1.trans (by decide +kernel)
  · exact Bool.eq_false_iff.mpr fun h => absurd ((precedence "retries").2.mp h) (by decide +kernel)

end Runbook
