import NodeGraph.Proofs.Plan.Catalog

/-!
# Plans and the values of parameters

The value of a parameter goes into a plan at two places only: into the list of parameters, and as
the operand of the steps that read it. `Plan.revise` replaces values there. If two graphs differ in
the values of parameters alone, their plans do so as well (`Graph.plan_revise`), since each step
that is assembled for the one is assembled for the other (`Assembly.add_revise`).

Values are given to parameters by name, and nodes refer to them by number. Neither need be unique.
`OpTable.plan_setParameter` says what a new value does to the plan.
-/

namespace NodeGraph

/-- New values of parameters, by number. Numbers without a new value keep theirs. -/
abbrev Revision := ParameterId → Option Value

/-- A new value for one number, and none for the others. -/
def Revision.single (id : ParameterId) (v : Value) : Revision := fun id' =>
  if id' = id then some v else none

section Revise

variable (r : Revision)

/-- A parameter with its new value, if there is one. Its number and its name stay. -/
def Parameter.revise (q : Parameter) : Parameter :=
  { q with value := (r q.id).getD q.value }

/-- A step with the new value of the parameter that it reads, if there is one. The value is its only
operand. -/
def Step.revise (s : Step) : Step :=
  match s.parameter.bind r with
  | some v => { s with operands := [.literal v] }
  | none => s

/-- A plan with the new values of parameters, at both places where these are. -/
def Plan.revise (p : Plan) : Plan :=
  { p with
    steps := p.steps.map (Step.revise r)
    parameters := p.parameters.map (Parameter.revise r) }

/-- A plan under construction with the new values of parameters. -/
def Assembly.revise (a : Assembly) : Assembly :=
  { a with
    steps := a.steps.map (Step.revise r)
    parameters := a.parameters.map (Parameter.revise r) }

/-- The numbers of a plan do not depend on the values. -/
theorem Plan.stats_revise (p : Plan) : (p.revise r).stats = p.stats := by
  simp [Plan.stats, Plan.revise]

end Revise

/-- Without new values, a plan stays as it is. -/
theorem Plan.revise_none (p : Plan) : p.revise (fun _ => none) = p := by
  have hstep : Step.revise (fun _ => none) = id := by
    funext s
    unfold Step.revise
    cases s.parameter <;> rfl
  have hparameter : Parameter.revise (fun _ => none) = id := rfl
  rw [Plan.revise, hstep, hparameter, List.map_id, List.map_id]

/-- The search for an order depends on the producers of nodes alone. -/
theorem Graph.postorder_congr {g g' : Graph} (h : g'.producers = g.producers)
    (path ids order : List NodeId) : g'.postorder path ids order = g.postorder path ids order := by
  fun_induction postorder g path ids order with
  | case1 path order => rw [postorder]
  | case2 path id ids order hv ih => rw [postorder, dif_pos hv, ih]
  | case3 path id ids order hv producer hfind => rw [postorder, dif_neg hv, h, hfind]
  | case4 path id ids order hv hfind defect hl ihl =>
    rw [postorder_visit hv (by rw [h, hfind]), h, ihl, hl]
    rfl
  | case5 path id ids order hv hfind listed hl ihl ih =>
    rw [postorder_visit hv (by rw [h, hfind]), h, ihl, hl]
    exact ih

variable {r : Revision} {g : Graph} {ps : List Parameter} {isKnown : OpCode → Bool}

namespace Assembly

/-- Whether a parameter is already in a catalog does not depend on values. -/
theorem catalog_revise (known : List Parameter) (read : Option Parameter) :
    catalog (known.map (Parameter.revise r)) (read.map (Parameter.revise r)) =
      (catalog known read).map (Parameter.revise r) := by
  cases read with
  | none => rfl
  | some q =>
    have hany : (known.map (Parameter.revise r)).any (·.id = q.id) = known.any (·.id = q.id) :=
      List.any_map
    show (if (known.map (Parameter.revise r)).any (·.id = q.id) then known.map (Parameter.revise r)
      else known.map (Parameter.revise r) ++ [q.revise r]) = _
    rw [hany, catalog]
    split
    · rfl
    · rw [List.map_append, List.map_singleton]

/-- A node finds the parameter that it reads with its new value. -/
theorem parameterOf_revise
    (h : ∀ id, ps.find? (·.id = id) = (g.parameter? id).map (Parameter.revise r)) (n : Node) :
    ({ g with parameters := ps } : Graph).parameterOf n =
      (g.parameterOf n).map (Option.map (Parameter.revise r)) := by
  have hbind : n.parameter.bind ({ g with parameters := ps } : Graph).parameter? =
      (n.parameter.bind g.parameter?).map (Parameter.revise r) := by
    cases n.parameter with
    | none => rfl
    | some id => exact h id
  unfold Graph.parameterOf
  rw [hbind]
  split
  · cases n.parameter.bind g.parameter? <;> rfl
  · rfl

/-- The step of a node has the new value of the parameter that it reads, and takes the same
slots. -/
theorem step_revise (g : Graph) (ps : List Parameter) (n : Node) (read : Option Parameter)
    (pool : SlotPool) :
    ({ g with parameters := ps } : Graph).step n (read.map (Parameter.revise r)) pool =
      ((g.step n read pool).1.revise r, (g.step n read pool).2) := by
  cases read with
  | none => rfl
  | some q =>
    show (Step.mk n.id n.op [.literal (q.revise r).value] (n.destinations pool).1 (some q.id),
        (n.destinations pool).2) =
      ((Step.mk n.id n.op [.literal q.value] (n.destinations pool).1 (some q.id)).revise r,
        (n.destinations pool).2)
    unfold Step.revise Parameter.revise
    rw [Option.bind_some]
    cases r q.id <;> rfl

/-- To add the step of a node comes to the same but for the new values, and a defect is the same. -/
theorem add_revise (h : ∀ id, ps.find? (·.id = id) = (g.parameter? id).map (Parameter.revise r))
    (a : Assembly) (n : Node) :
    add isKnown { g with parameters := ps } (a.revise r) n =
      (add isKnown g a n).map (revise r) := by
  unfold add
  split
  · rfl
  · rw [parameterOf_revise h]
    cases g.parameterOf n with
    | error defect => rfl
    | ok read =>
      show Except.ok (Assembly.mk
          (({ g with parameters := ps } : Graph).step n (read.map (Parameter.revise r)) a.pool).2
          (a.steps.map (Step.revise r) ++
            [(({ g with parameters := ps } : Graph).step n (read.map (Parameter.revise r))
              a.pool).1])
          (catalog (a.parameters.map (Parameter.revise r)) (read.map (Parameter.revise r)))) =
        Except.ok (revise r (Assembly.mk (g.step n read a.pool).2
          (a.steps ++ [(g.step n read a.pool).1]) (catalog a.parameters read)))
      rw [step_revise, catalog_revise, revise, List.map_append, List.map_singleton]

/-- To add the steps of nodes comes to the same but for the new values. -/
theorem foldlM_add_revise
    (h : ∀ id, ps.find? (·.id = id) = (g.parameter? id).map (Parameter.revise r))
    (nodes : List Node) (a : Assembly) :
    nodes.foldlM (add isKnown { g with parameters := ps }) (a.revise r) =
      (nodes.foldlM (add isKnown g) a).map (revise r) := by
  induction nodes generalizing a with
  | nil => rfl
  | cons n nodes ih =>
    rw [List.foldlM_cons, List.foldlM_cons, add_revise h]
    cases add isKnown g a n with
    | error defect => rfl
    | ok a' => exact ih a'

end Assembly

namespace Graph

/-- The plan of a graph with other parameters is the same but for the values of these, if each
number has the same first parameter but for its value. Planning also stops with the same defect. -/
theorem plan_revise (h : ∀ id, ps.find? (·.id = id) = (g.parameter? id).map (Parameter.revise r)) :
    ({ g with parameters := ps } : Graph).plan isKnown = (g.plan isKnown).map (Plan.revise r) := by
  have horder (id : NodeId) :
      ({ g with parameters := ps } : Graph).dependencyOrder id = g.dependencyOrder id := by
    rw [dependencyOrder_eq_postorder, dependencyOrder_eq_postorder]
    have hproducers : ({ g with parameters := ps } : Graph).producers = g.producers := rfl
    exact postorder_congr hproducers [] [id] []
  have hsteps (nodes : List Node) :
      nodes.foldlM (Assembly.add isKnown { g with parameters := ps }) {} =
        Assembly.revise r <$> nodes.foldlM (Assembly.add isKnown g) {} :=
    Assembly.foldlM_add_revise h nodes {}
  -- The checks, the sink and the order do not look at parameters.
  show (do
    checkIds [] g.nodes
    g.wires.forM g.checkWire
    g.wires.forM g.checkFanIn
    let sink ← g.sink
    let order ← ({ g with parameters := ps } : Graph).dependencyOrder sink.id
    let a ← (order.filterMap g.node?).foldlM (Assembly.add isKnown { g with parameters := ps }) {}
    return ⟨a.steps, a.parameters, a.pool.slotCount, g.nodes.length⟩) =
    Plan.revise r <$> g.plan isKnown
  simp only [plan, horder, hsteps, map_bind, bind_map_left, map_pure]
  rfl

/-- The first parameter of the name gets the value. Others with that name keep theirs. -/
theorem assign_append {name : String} {v : Value} {before after : List Parameter} {q : Parameter}
    (hbefore : ∀ r ∈ before, r.name ≠ name) (hq : q.name = name) :
    assign name v (before ++ q :: after) = before ++ { q with value := v } :: after := by
  induction before with
  | nil => rw [List.nil_append, assign, if_pos hq, List.nil_append]
  | cons r before ih =>
    obtain ⟨hr, hbefore⟩ := List.forall_mem_cons.1 hbefore
    rw [List.cons_append, assign, if_neg hr, ih hbefore, List.cons_append]

/-- A value is given to the first parameter of the name, whatever its number is, and nothing else
changes in the graph. -/
theorem setParameter?_eq_some {g' : Graph} {name : String} {v : Value}
    (h : g.setParameter? name v = some g') :
    ∃ before q after, g.parameters = before ++ q :: after ∧ q.name = name ∧
      (∀ r ∈ before, r.name ≠ name) ∧
      g' = { g with parameters := before ++ { q with value := v } :: after } := by
  unfold setParameter? at h
  split at h
  · rename_i hany
    cases h
    have hsome : (g.parameters.find? (·.name = name)).isSome := by
      rwa [List.find?_isSome, ← List.any_eq_true]
    obtain ⟨q, hq⟩ := Option.isSome_iff_exists.1 hsome
    obtain ⟨hname, before, after, hsplit, hbefore⟩ := List.find?_eq_some_iff_append.1 hq
    have hname : q.name = name := by simpa using hname
    have hbefore : ∀ r ∈ before, r.name ≠ name := fun r hr => by simpa using hbefore r hr
    exact ⟨before, q, after, hsplit, hname, hbefore, by rw [hsplit, assign_append hbefore hname]⟩
  · cases h

section Search

variable {before after : List Parameter} {q : Parameter} {v : Value}

/-- The value of a parameter does not matter for the search for other numbers. -/
theorem find?_of_ne {id : ParameterId} (hid : q.id ≠ id) :
    (before ++ { q with value := v } :: after).find? (·.id = id) =
      (before ++ q :: after).find? (·.id = id) := by
  rw [List.find?_append, List.find?_append, List.find?_cons_of_neg (by simpa using hid),
    List.find?_cons_of_neg (by simpa using hid)]

/-- The value of a parameter does not matter if an earlier one has its number, since that one is
found. -/
theorem find?_of_shadowed (h : ∃ r ∈ before, r.id = q.id) (id : ParameterId) :
    (before ++ { q with value := v } :: after).find? (·.id = id) =
      (before ++ q :: after).find? (·.id = id) := by
  by_cases hid : q.id = id
  · obtain ⟨r, hr, hrid⟩ := h
    have hsome : (before.find? (·.id = id)).isSome :=
      List.find?_isSome.2 ⟨r, hr, decide_eq_true (hrid.trans hid)⟩
    rw [List.find?_append, List.find?_append, Option.or_of_isSome hsome,
      Option.or_of_isSome hsome]
  · exact find?_of_ne hid

/-- If no earlier parameter has its number, it is found with its new value. -/
theorem find?_of_first (h : ∀ r ∈ before, r.id ≠ q.id) (id : ParameterId) :
    (before ++ { q with value := v } :: after).find? (·.id = id) =
      ((before ++ q :: after).find? (·.id = id)).map (Parameter.revise (.single q.id v)) := by
  by_cases hid : q.id = id
  · have hnone : before.find? (·.id = id) = none :=
      List.find?_eq_none.2 fun r hr => by simpa using hid ▸ h r hr
    have hvalue : q.revise (.single q.id v) = { q with value := v } := by
      simp [Parameter.revise, Revision.single]
    rw [List.find?_append, List.find?_append, hnone, Option.none_or, Option.none_or,
      List.find?_cons_of_pos (by simpa using hid), List.find?_cons_of_pos (by simpa using hid),
      Option.map_some, hvalue]
  · rw [find?_of_ne hid]
    cases hfound : (before ++ q :: after).find? (·.id = id) with
    | none => rfl
    | some r =>
      have hrid : r.id = id := by simpa using List.find?_some hfound
      have hother : Revision.single q.id v r.id = none := if_neg (hrid ▸ Ne.symm hid)
      have hvalue : r.revise (.single q.id v) = r := by
        rw [Parameter.revise, hother, Option.getD_none]
      rw [Option.map_some, hvalue]

end Search

end Graph

section Value

variable (t : OpTable) {g : Graph} {before after : List Parameter} {q : Parameter} {v : Value}

/-- The plan does not depend on the value of a parameter if an earlier one has its number. -/
theorem OpTable.plan_of_shadowed (hsplit : g.parameters = before ++ q :: after)
    (h : ∃ r ∈ before, r.id = q.id) :
    t.plan { g with parameters := before ++ { q with value := v } :: after } = t.plan g := by
  have hplan : t.plan { g with parameters := before ++ { q with value := v } :: after } =
      (t.plan g).map (Plan.revise fun _ => none) := by
    refine Graph.plan_revise fun id => ?_
    rw [Graph.find?_of_shadowed h id, ← hsplit]
    exact Option.map_id'.symm
  rw [hplan]
  cases t.plan g with
  | error defect => rfl
  | ok p => exact congrArg Except.ok p.revise_none

/-- The plan has the new value of a parameter if no earlier one has its number. -/
theorem OpTable.plan_of_first (hsplit : g.parameters = before ++ q :: after)
    (h : ∀ r ∈ before, r.id ≠ q.id) :
    t.plan { g with parameters := before ++ { q with value := v } :: after } =
      (t.plan g).map (Plan.revise (.single q.id v)) := by
  refine Graph.plan_revise fun id => ?_
  rw [Graph.parameter?, hsplit]
  exact Graph.find?_of_first h id

end Value

/-- A new value for the first parameter of a name. Planning stops with a defect exactly if it did so
before, and with the same one. If an earlier parameter has the number, the plan stays as it is.
Otherwise the steps that read the number and the list of parameters have the new value, and all else
in the plan stays as it is. -/
theorem OpTable.plan_setParameter (t : OpTable) {g g' : Graph} {name : String} {v : Value}
    (h : g.setParameter? name v = some g') :
    ∃ before q after, g.parameters = before ++ q :: after ∧ q.name = name ∧
      (∀ r ∈ before, r.name ≠ name) ∧
      g' = { g with parameters := before ++ { q with value := v } :: after } ∧
      (∀ defect, t.plan g' = .error defect ↔ t.plan g = .error defect) ∧
      ∀ p, t.plan g = .ok p → ∃ p', t.plan g' = .ok p' ∧ p'.stats = p.stats ∧
        ((∃ r ∈ before, r.id = q.id) → p' = p) ∧
        ((∀ r ∈ before, r.id ≠ q.id) → p' = p.revise (.single q.id v)) := by
  obtain ⟨before, q, after, hsplit, hname, hbefore, rfl⟩ := Graph.setParameter?_eq_some h
  refine ⟨before, q, after, hsplit, hname, hbefore, rfl, ?_⟩
  by_cases hid : ∃ r ∈ before, r.id = q.id
  · rw [plan_of_shadowed t hsplit hid]
    refine ⟨fun _ => .rfl, fun p hp => ⟨p, hp, rfl, fun _ => rfl, fun hne => ?_⟩⟩
    obtain ⟨r, hr, hrid⟩ := hid
    exact absurd hrid (hne r hr)
  · rw [plan_of_first t hsplit fun r hr hrid => hid ⟨r, hr, hrid⟩]
    cases t.plan g with
    | error defect =>
      refine ⟨fun _ => .rfl, ?_⟩
      rintro _ ⟨⟩
    | ok p =>
      refine ⟨fun _ => ?_, ?_⟩
      · constructor <;> rintro ⟨⟩
      · rintro _ ⟨⟩
        exact ⟨_, rfl, p.stats_revise _, fun h => absurd h hid, fun _ => rfl⟩

/-- A value for the parameter that is read twice changes two steps. A value for the other one with
the same number changes none. -/
theorem OpTable.plan_setParameter_wellRead :
    ∃ g g', Graph.wellRead.setParameter? "count" (.integer 9) = some g ∧
      Graph.wellRead.setParameter? "spare" (.integer 9) = some g' ∧
      OpTable.branching.plan .wellRead = .ok .wellRead ∧
      OpTable.branching.plan g = .ok (Plan.wellRead.revise (.single ⟨8⟩ (.integer 9))) ∧
      OpTable.branching.plan g' = .ok .wellRead := by
  have hplan : OpTable.branching.plan .wellRead = .ok .wellRead := by decide +kernel
  have hcount : Graph.wellRead.setParameter? "count" (.integer 9) = some _ := rfl
  have hspare : Graph.wellRead.setParameter? "spare" (.integer 9) = some _ := rfl
  refine ⟨_, _, hcount, hspare, hplan, ?_, ?_⟩
  · obtain ⟨before, q, after, hsplit, hname, hbefore, -, -, hplans⟩ :=
      OpTable.plan_setParameter .branching hcount
    obtain ⟨p, hp, -, -, hfirst⟩ := hplans _ hplan
    rcases before with _ | ⟨r, _ | ⟨r', before⟩⟩
    · cases hsplit
      exact absurd hname (by decide)
    · cases hsplit
      rw [hp, hfirst (by decide)]
    · obtain ⟨rfl, -⟩ := List.cons.inj (List.cons.inj hsplit).2
      exact absurd rfl (hbefore _ (.tail _ (.head _)))
  · obtain ⟨before, q, after, hsplit, hname, hbefore, -, -, hplans⟩ :=
      OpTable.plan_setParameter .branching hspare
    obtain ⟨p, hp, -, hlater, -⟩ := hplans _ hplan
    rcases before with _ | ⟨r, _ | ⟨r', _ | ⟨r'', before⟩⟩⟩
    · cases hsplit
      exact absurd hname (by decide)
    · cases hsplit
      exact absurd hname (by decide)
    · cases hsplit
      rw [hp, hlater (by decide)]
    · obtain ⟨rfl, -⟩ := List.cons.inj (List.cons.inj (List.cons.inj hsplit).2).2
      exact absurd rfl (hbefore _ (.tail _ (.tail _ (.head _))))

end NodeGraph
