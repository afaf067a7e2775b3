import EndpointPayload.Proofs.Route.Detection
import EndpointPayload.Proofs.Source.Spine

/-!
# Verbs called one after the other on one path

After `receiver.route('path')` any number of verbs can be called, each on what the one before it
returns: `IsVerbChain` is such an expression, with its verb calls from the last one to the first.  A
verb call finds its path by going back over the calls before it.

In the nodes of a script the verb calls stand before all else that the expression holds, each
followed by its callee.  So the expression registers exactly one route for each verb call, from the
last one to the first, all with the same path; what its arguments register comes later.
-/

namespace EndpointPayload

open Source

/-! ## Chains -/

/-- A call of a verb with the member that is called. -/
structure VerbCall where
  node : Tree
  callee : Tree
  verb : Verb
  arguments : List Tree

/-- The call and its callee. -/
def VerbCall.nodes (call : VerbCall) : List Tree := [call.node, call.callee]

/-- `receiver.route('path')` and the verb calls after it, from the last one to the first.  The verbs
are in any letter case and their first argument is no literal. -/
inductive IsVerbChain (receiver : Tree) (path : String) (start : Tree) :
    Tree → List VerbCall → Prop where
  | start
      {callee first : Tree}
      {rest : List Tree}
      (hcall : start.IsMethodCall callee receiver "route" (first :: rest))
      (hpath : first.literal? = some path) :
      IsVerbChain receiver path start start []
  | verb
      {t callee object first : Tree}
      {name : String}
      {verb : Verb}
      {rest : List Tree}
      {calls : List VerbCall}
      (hcall : t.IsMethodCall callee object name (first :: rest))
      (hname : Text.lower name = Text.lower verb.name)
      (hfirst : first.literal? = none)
      (hchain : IsVerbChain receiver path start object calls) :
      IsVerbChain receiver path start t (⟨t, callee, verb, first :: rest⟩ :: calls)

/-- The prefix and the path of the routes that a receiver registers under a path. -/
inductive Mounts.Places (mounts : Mounts) (receiver : Tree) (path : String) :
    Option String → String → Prop where
  | mounted
      {name above : String}
      (hname : receiver.name? = some name)
      (hmounted : mounts.path? name = some above) :
      Places mounts receiver path (some above) (RoutePath.join above path)
  | alone
      (halone : ∀ name, receiver.name? = some name → mounts.path? name = none) :
      Places mounts receiver path none (RoutePath.normalize path)

/-- What a verb call registers, under the given prefix and path. -/
structure VerbCall.Registers (script : Script) (imports : Imports) (mounts : Mounts)
    (above : Option String) (full : String) (call : VerbCall) (r : Registration) : Prop where
  at_eq : Registration.at? script imports mounts call.node = some r
  verb_eq : r.route.verb = call.verb
  path_eq : r.route.path = full
  routerPrefix_eq : r.route.routerPrefix = above
  locallyMounted_eq : r.locallyMounted = above.isSome
  line_eq : r.route.line = call.node.startLine
  middlewares_eq : r.route.middlewares = call.arguments.dropLast.filterMap Tree.name?
  mentions : ∃ last, call.arguments.getLast? = some last ∧
    r.route.Mentions script.path (HandlerMention.ofTree imports last)

namespace Mounts

variable {mounts : Mounts} {receiver : Tree} {path full : String} {above : Option String}

theorem exists_places (mounts : Mounts) (receiver : Tree) (path : String) :
    ∃ above full, mounts.Places receiver path above full := by
  cases hbind : receiver.name?.bind mounts.path? with
  | none => exact ⟨none, _, .alone fun name hname => by rwa [hname] at hbind⟩
  | some above =>
      obtain ⟨name, hname, hmounted⟩ := Option.bind_eq_some_iff.mp hbind
      exact ⟨some above, _, .mounted hname hmounted⟩

theorem Places.bind_path?_eq (h : mounts.Places receiver path above full) :
    receiver.name?.bind mounts.path? = above := by
  cases h with
  | mounted hname hmounted => rw [hname, Option.bind_some, hmounted]
  | alone halone => exact Option.bind_eq_none_iff.mpr halone

end Mounts

/-- The way back from a call: a route ends it, a verb goes on with the object. -/
theorem Registration.chainStart?_step
    {t : Tree}
    {m : MethodCall}
    (h : t.methodCall? = some m) :
    chainStart? t =
      if m.name = "route" then
        m.arguments.head?.bind fun first => first.literal?.map fun path => (path, m.object.name?)
      else if (Verb.ofName? m.name).isSome then chainStart? m.object
      else none := by
  rw [chainStart?]
  split
  · rename_i hnone
    rw [h] at hnone
    cases hnone
  · rename_i found hfound
    obtain rfl := Option.some.inj (hfound.symm.trans h)
    rfl

theorem Verb.lower_name_ne_route (v : Verb) : Text.lower v.name ≠ Text.lower "route" := by
  cases v <;> decide +kernel

namespace IsVerbChain

variable {receiver start t : Tree} {path : String} {calls : List VerbCall}

theorem exists_start (h : IsVerbChain receiver path start t calls) :
    ∃ callee arguments, start.IsMethodCall callee receiver "route" arguments := by
  induction h with
  | start hcall hpath => exact ⟨_, _, hcall⟩
  | verb hcall hname hfirst hchain ih => exact ih

/-- A verb call leads back to the start, over any number of calls. -/
theorem chainStart?_eq (h : IsVerbChain receiver path start t calls) :
    Registration.chainStart? t = some (path, receiver.name?) := by
  induction h with
  | start hcall hpath =>
      rw [Registration.chainStart?_step (Tree.methodCall?_eq_some_iff.mpr ⟨_, hcall⟩)]
      simp [hpath]
  | @verb t callee object first name verb rest calls hcall hname hfirst hchain ih =>
      have hroute : name ≠ "route" := by
        rintro rfl
        exact verb.lower_name_ne_route hname.symm
      rw [Registration.chainStart?_step (Tree.methodCall?_eq_some_iff.mpr ⟨_, hcall⟩)]
      simp [hroute, Verb.ofName?_of_lower_eq hname, ih]

/-- The nodes of the expression start with the verb calls, each before its callee. -/
theorem flatMap_nodes_prefix_preorder
    (h : IsVerbChain receiver path start t calls)
    (ht : t.Every Tree.IsHeaded) :
    calls.flatMap VerbCall.nodes ++ [start] <+: t.preorder := by
  induction h with
  | start hcall hpath =>
      obtain ⟨l, children⟩ := start
      rw [List.flatMap_nil, List.nil_append, Tree.preorder, List.cons_prefix_cons]
      exact ⟨rfl, List.prefix_append [] _⟩
  | verb hcall hname hfirst hchain ih =>
      -- The call and its callee come first, then the object with all the calls before this one.
      have hobject := ih (ht.of_mem hcall.object_mem_preorder)
      refine .trans ?_ (hcall.cons_prefix_preorder ht)
      rw [List.flatMap_cons, List.append_assoc]
      exact List.cons_prefix_cons.mpr ⟨rfl, List.cons_prefix_cons.mpr ⟨rfl, hobject⟩⟩

end IsVerbChain

/-! ## What a chain registers -/

namespace Registration

variable {script : Script} {imports : Imports} {mounts : Mounts}
variable {receiver start t : Tree} {path full : String} {above : Option String}
variable {calls : List VerbCall}

theorem at?_of_member (h : t.kind = .member) : at? script imports mounts t = none := by
  have hcall : t.methodCall? = none := by simp [Tree.methodCall?, h]
  rw [at?, hcall]

/-- The start of a chain registers nothing. -/
theorem at?_of_route
    {callee : Tree}
    {arguments : List Tree}
    (h : t.IsMethodCall callee receiver "route" arguments) :
    at? script imports mounts t = none := by
  have hverb : Verb.ofName? "route" = none := by decide +kernel
  rw [at?, Tree.methodCall?_eq_some_iff.mpr ⟨_, h⟩]
  simp only [hverb]

/-- A verb call after the start registers its route under the path of the start. -/
theorem exists_registers_of_verb
    {callee object first : Tree}
    {name : String}
    {verb : Verb}
    {rest : List Tree}
    (hcall : t.IsMethodCall callee object name (first :: rest))
    (hname : Text.lower name = Text.lower verb.name)
    (hfirst : first.literal? = none)
    (hstart : chainStart? object = some (path, receiver.name?))
    (hpath : isPath path = true)
    (hplaces : mounts.Places receiver path above full) :
    ∃ r, VerbCall.Registers script imports mounts above full
      ⟨t, callee, verb, first :: rest⟩ r := by
  obtain ⟨last, hlast⟩ : ∃ last, (first :: rest).getLast? = some last :=
    ⟨_, List.getLast?_cons⟩
  have hparts : parts? ⟨object, name, first :: rest⟩ =
      some (path, receiver.name?, first :: rest) := by
    simp [parts?, hfirst, hstart]
  have hmounted := hplaces.bind_path?_eq
  obtain ⟨found, hfound⟩ : ∃ found, at? script imports mounts t = found := ⟨_, rfl⟩
  have hrecord := hfound
  rw [at?, Tree.methodCall?_eq_some_iff.mpr ⟨_, hcall⟩] at hrecord
  simp only [Verb.ofName?_of_lower_eq hname, hparts, hpath, hlast, hmounted] at hrecord
  subst hrecord
  refine ⟨_, hfound, rfl, ?_, rfl, rfl, rfl, rfl, last, hlast, rfl, rfl, rfl, rfl, rfl⟩
  cases hplaces <;> rfl

/-- Each verb call of a chain registers one route, and its callee none. -/
theorem forall₂_registers
    (h : IsVerbChain receiver path start t calls)
    (hpath : isPath path = true)
    (hplaces : mounts.Places receiver path above full) :
    List.Forall₂ (VerbCall.Registers script imports mounts above full) calls
      ((calls.flatMap VerbCall.nodes).filterMap (at? script imports mounts)) := by
  induction h with
  | start hcall hpath => exact .nil
  | verb hcall hname hfirst hchain ih =>
      obtain ⟨r, hregisters⟩ : ∃ r, VerbCall.Registers script imports mounts above full _ r :=
        exists_registers_of_verb hcall hname hfirst hchain.chainStart?_eq hpath hplaces
      rw [List.flatMap_cons, List.filterMap_append, VerbCall.nodes,
        List.filterMap_cons_some hregisters.at_eq,
        List.filterMap_cons_none (at?_of_member hcall.calleeKind_eq)]
      exact .cons hregisters ih

/-- In every script that was read, wherever a chain of verb calls on one path stands, the walk comes
to its calls from the last one to the first and then to its start.  Each call registers exactly one
route, with its own verb, middlewares and handler, and all have one path and prefix, told by the
receiver and the path of the start.  The callees and the start register nothing, and the routes of
the script are those before, these and those after. -/
theorem ofScript_of_isVerbChain
    {before rest : List Tree}
    (hscript : Tree.ofText script.dialect script.text = .ok script.tree)
    (hnodes : script.nodes = before ++ t :: rest)
    (hchain : IsVerbChain receiver path start t calls)
    (hpath : isPath path = true)
    (imports : Imports)
    (mounts : Mounts) :
    chainStart? t = some (path, receiver.name?) ∧
    ∃ after routes above full,
      t :: rest = calls.flatMap VerbCall.nodes ++ start :: after ∧
      (calls.flatMap VerbCall.nodes).filterMap (at? script imports mounts) = routes ∧
      at? script imports mounts start = none ∧
      mounts.Places receiver path above full ∧
      List.Forall₂ (VerbCall.Registers script imports mounts above full) calls routes ∧
      ofScript script imports mounts =
        before.filterMap (at? script imports mounts) ++ routes ++
          after.filterMap (at? script imports mounts) := by
  have hnode : t ∈ script.tree.preorder := by
    have hmem : t ∈ before ++ t :: rest := by simp
    rwa [← hnodes] at hmem
  have hheaded : t.Every Tree.IsHeaded := (Tree.every_isHeaded_of_ofText hscript).of_mem hnode
  -- The nodes of the expression come right after its first node, and its calls come first there.
  have hcalls : calls.flatMap VerbCall.nodes ++ [start] <+: t :: rest :=
    (hchain.flatMap_nodes_prefix_preorder hheaded).trans
      (Tree.preorder_prefix_of_preorder_eq hnodes)
  obtain ⟨after, hafter⟩ := hcalls
  rw [List.append_assoc, List.singleton_append] at hafter
  have hnone : at? script imports mounts start = none := by
    obtain ⟨_, _, hstart⟩ := hchain.exists_start
    exact at?_of_route hstart
  obtain ⟨above, full, hplaces⟩ := mounts.exists_places receiver path
  refine ⟨hchain.chainStart?_eq, after, _, above, full, hafter.symm, rfl, hnone, hplaces,
    forall₂_registers hchain hpath hplaces, ?_⟩
  rw [ofScript, hnodes, ← hafter, List.filterMap_append, List.filterMap_append,
    List.filterMap_cons_none hnone, List.append_assoc]

namespace Chained

/-- A file with a mounted router and two verbs after one path. -/
def project : FileSystem :=
  ⟨.directory [("routes.js", .file (some
    ("app.use('/api', r);\n" ++
      "r.route('/items').GET(list).put(auth, update);\n")))], []⟩

/-- Whether a node is a chain of the given verbs, the last one first, on the path of a receiver. -/
def hasVerbs (receiver path : String) : List Verb → Tree → Bool
  | [], t => t.methodCall?.any fun m => m.name = "route" && m.object.name? = some receiver &&
      m.arguments.head?.any fun first => first.literal? = some path
  | v :: vs, t => t.methodCall?.any fun m =>
      m.name.toList.map Char.toLower = v.name.toList.map Char.toLower &&
      (m.arguments.head?.any fun first => first.literal? = none) &&
        hasVerbs receiver path vs m.object

theorem exists_isVerbChain_of_hasVerbs
    {receiver path : String}
    {verbs : List Verb}
    {t : Tree}
    (h : hasVerbs receiver path verbs t = true) :
    ∃ object start calls, IsVerbChain object path start t calls ∧
      object.name? = some receiver ∧ calls.map VerbCall.verb = verbs := by
  induction verbs generalizing t with
  | nil =>
      simp only [hasVerbs, Option.any_eq_true, Bool.and_eq_true, decide_eq_true_eq,
        List.head?_eq_some_iff] at h
      obtain ⟨⟨object, _, arguments⟩, hm, ⟨rfl, hname⟩, first, ⟨rest, rfl⟩, hfirst⟩ := h
      obtain ⟨callee, hcall⟩ := Tree.methodCall?_eq_some_iff.mp hm
      exact ⟨object, t, [], .start hcall hfirst, hname, rfl⟩
  | cons v vs ih =>
      simp only [hasVerbs, Option.any_eq_true, Bool.and_eq_true, decide_eq_true_eq,
        List.head?_eq_some_iff] at h
      obtain ⟨⟨object, name, arguments⟩, hm, ⟨hname, first, ⟨rest, rfl⟩, hfirst⟩, hvs⟩ := h
      obtain ⟨callee, hcall⟩ := Tree.methodCall?_eq_some_iff.mp hm
      have hlower : Text.lower name = Text.lower v.name := by
        apply String.toList_inj.mp
        rw [Text.lower, Text.lower, String.toList_map, String.toList_map, hname]
      obtain ⟨receiver, start, calls, hchain, hreceiver, rfl⟩ := ih hvs
      exact ⟨receiver, start, _, .verb hcall hlower hfirst hchain, hreceiver, rfl⟩

/-- Whether the file has the chain and mounts its receiver. -/
def isShown (script : Script) : Bool :=
  script.nodes.any (hasVerbs "r" "/items" [.put, .get]) &&
    (Mounts.ofScript project script).path? "r" = some "/api"

theorem isShown_routes : (Script.read? project "/routes.js").any isShown = true := by
  decide +kernel

end Chained

/-- Two verbs after one path of a mounted router, one in upper case. -/
theorem ofScript_of_chained_items :
    ∃ script before t rest receiver start calls,
      Script.read? Chained.project "/routes.js" = some script ∧
      Tree.ofText script.dialect script.text = .ok script.tree ∧
      script.nodes = before ++ t :: rest ∧
      IsVerbChain receiver "/items" start t calls ∧ isPath "/items" = true ∧
      ∃ after put get,
        ofScript script (Imports.ofScript Chained.project script)
          (Mounts.ofScript Chained.project script) = before.filterMap
            (at? script (Imports.ofScript Chained.project script)
              (Mounts.ofScript Chained.project script)) ++ [put, get] ++ after ∧
        put.route.title = "PUT /api/items" ∧ get.route.title = "GET /api/items" := by
  obtain ⟨script, hread, hshown⟩ := (Option.any_eq_true _ _).mp Chained.isShown_routes
  simp only [Chained.isShown, Bool.and_eq_true, List.any_eq_true, decide_eq_true_eq] at hshown
  obtain ⟨⟨t, ht, hverbs⟩, hmounted⟩ := hshown
  have hparsed : Tree.ofText script.dialect script.text = .ok script.tree := by
    obtain ⟨dialect, text, tree, -, -, hparse, rfl⟩ := Script.read?_eq_some_iff.mp hread
    exact hparse
  obtain ⟨before, rest, hnodes⟩ := List.append_of_mem ht
  obtain ⟨receiver, start, calls, hchain, hname, hcalls⟩ :=
    Chained.exists_isVerbChain_of_hasVerbs hverbs
  have hpath : isPath "/items" = true := by decide +kernel
  obtain ⟨-, after, routes, above, full, -, -, -, hplaces, hroutes, hall⟩ :=
    ofScript_of_isVerbChain hparsed hnodes hchain hpath
      (Imports.ofScript Chained.project script) (Mounts.ofScript Chained.project script)
  have hfull : full = "/api/items" := by
    cases hplaces with
    | mounted hother habove =>
        obtain rfl := Option.some.inj (hother.symm.trans hname)
        obtain rfl := Option.some.inj (habove.symm.trans hmounted)
        decide +kernel
    | alone halone =>
        rw [halone _ hname] at hmounted
        cases hmounted
  obtain _ | ⟨putCall, _ | ⟨getCall, _ | _⟩⟩ := calls <;> simp at hcalls
  obtain _ | ⟨hput, _ | ⟨hget, _ | _⟩⟩ := hroutes
  refine ⟨script, before, t, rest, receiver, start, _, hread, hparsed, hnodes, hchain, hpath, _, _,
    _, hall, ?_, ?_⟩
  · rw [Route.title, hput.verb_eq, hput.path_eq, hcalls.1, hfull]
    decide +kernel
  · rw [Route.title, hget.verb_eq, hget.path_eq, hcalls.2, hfull]
    decide +kernel

end Registration
end EndpointPayload
