import FuturesChains.Proofs.Selection.ChainLocality

/-!
# What a step reads and writes

A manager's pass over some models reads and writes what is held for the chains of the models that
are due, in the engine and among the universes in force, and nothing of the other chains. As for a
refresh this is said by two lemmas: `SelectionManager.agreesOn_stepModels`, for what is left as it
is, and `SelectionManager.stepModels_transfer`, for the same pass where the same is held.
-/

namespace FuturesChains

namespace ActiveUniverses

variable {a b : ActiveUniverses} {P : Symbol → Prop}

/-- What is in force for a chain but for the identity of the security, and the contracts that are
selected for it. -/
def terms? (a : ActiveUniverses) (chain : Symbol) : Option (UniverseTerms × List Symbol) :=
  (a.find? chain).map fun entry => (entry.current.terms, entry.selected)

theorem selected_eq (a : ActiveUniverses) (chain : Symbol) :
    a.selected chain = ((a.terms? chain).map (·.2)).getD [] := by
  unfold selected terms?
  cases a.find? chain <;> rfl

theorem contains_eq (a : ActiveUniverses) (chain : Symbol) :
    a.contains chain = (a.terms? chain).isSome := by
  simp [contains, terms?]

/-- Putting a universe in force changes its chain only, and keeps the selection. -/
theorem terms?_add (a : ActiveUniverses) (u : ChainUniverse) (chain : Symbol) :
    (a.add u).2.terms? chain =
      if u.chain = chain then some (u.terms, a.selected chain) else a.terms? chain := by
  rw [terms?, find?_add]
  split
  · rfl
  · rfl

theorem add_fst (a : ActiveUniverses) (u : ChainUniverse) :
    (a.add u).1 = !a.contains u.chain := by
  unfold add
  split <;> simp_all

end ActiveUniverses

namespace SelectionManager

variable {a b : ActiveUniverses} {p : Pull} {pulls pulls' : List Pull} {P : Symbol → Prop}

theorem activate_of_error {error : SelectionError} (h : p.outcome = .error error)
    (rest : List Pull) :
    activate a (p :: rest) = ((p, false) :: (activate a rest).1, (activate a rest).2) := by
  simp only [activate, h]

theorem activate_of_ok {u : ChainUniverse} (h : p.outcome = .ok u) (rest : List Pull) :
    activate a (p :: rest) =
      ((p, !a.contains u.chain) :: (activate (a.add u).2 rest).1,
        (activate (a.add u).2 rest).2) := by
  simp only [activate, h, ActiveUniverses.add_fst]

/-- Pulls leave what is in force for the chains that they give no universe of. -/
theorem terms?_activate {chain : Symbol}
    (hchain : ∀ p ∈ pulls, ∀ u, p.outcome = .ok u → u.chain ≠ chain) :
    (activate a pulls).2.terms? chain = a.terms? chain := by
  induction pulls generalizing a with
  | nil => rfl
  | cons p rest ih =>
      obtain ⟨hfirst, hrest⟩ := List.forall_mem_cons.1 hchain
      cases houtcome : p.outcome with
      | error error =>
          rw [activate_of_error houtcome]
          exact ih hrest
      | ok u =>
          rw [activate_of_ok houtcome, ih hrest, ActiveUniverses.terms?_add,
            if_neg (hfirst u houtcome)]

/-- Pulls that say the same are marked in the same way where the same is in force for their chains,
and the same is in force after them. -/
theorem activate_transfer (hterms : pulls'.map (·.terms) = pulls.map (·.terms))
    (hchains : ∀ p ∈ pulls, ∀ u, p.outcome = .ok u → P u.chain)
    (hactive : ∀ chain, P chain → b.terms? chain = a.terms? chain) :
    (activate b pulls').1.map (fun marked => (marked.1.terms, marked.2)) =
        (activate a pulls).1.map (fun marked => (marked.1.terms, marked.2)) ∧
      ∀ chain, P chain →
        (activate b pulls').2.terms? chain = (activate a pulls).2.terms? chain := by
  induction pulls generalizing a b pulls' with
  | nil =>
      obtain rfl := List.map_eq_nil_iff.1 hterms
      exact ⟨rfl, hactive⟩
  | cons p rest ih =>
      obtain ⟨hfirst, hrest⟩ := List.forall_mem_cons.1 hchains
      obtain ⟨p', rest', rfl, hp, hsame⟩ := List.map_eq_cons_iff.1 hterms
      have houtcome : outcomeTerms p'.outcome = outcomeTerms p.outcome := congrArg (·.2) hp
      cases hgiven : p.outcome with
      | error error =>
          rw [hgiven] at houtcome
          rw [activate_of_error hgiven, activate_of_error (outcomeTerms_eq_error.1 houtcome)]
          obtain ⟨hmarked, hafter⟩ := ih hsame hrest hactive
          exact ⟨by rw [List.map_cons, List.map_cons, hmarked, hp], hafter⟩
      | ok u =>
          rw [hgiven] at houtcome
          obtain ⟨u', hgiven', hu⟩ := outcomeTerms_eq_ok.1 houtcome
          have hchain : u'.chain = u.chain := congrArg (·.chain) hu
          have hsame' := hactive u.chain (hfirst u hgiven)
          have hadded : ∀ chain, P chain →
              (b.add u').2.terms? chain = (a.add u).2.terms? chain := by
            intro chain hchainP
            rw [ActiveUniverses.terms?_add, ActiveUniverses.terms?_add, hchain, hu,
              ActiveUniverses.selected_eq, ActiveUniverses.selected_eq, hactive chain hchainP]
          rw [activate_of_ok hgiven, activate_of_ok hgiven']
          obtain ⟨hmarked, hafter⟩ := ih hsame hrest hadded
          refine ⟨?_, hafter⟩
          rw [List.map_cons, List.map_cons, hmarked, hp, ActiveUniverses.contains_eq,
            ActiveUniverses.contains_eq, hchain, hsame']

end SelectionManager

namespace RefreshReport

/-- What a report says but for the model's number, the engine's counts and the identities of
securities: the pulls with their marks, the number of universes, and the next refresh. -/
def summary (r : RefreshReport) :
    List ((Symbol × Except SelectionError UniverseTerms) × Bool) × Nat × Instant :=
  (r.pulls.map fun marked => (marked.1.terms, marked.2), r.emitted, r.nextRefresh)

/-- Reports whose pulls say the same, and that name the same next refresh, say the same. -/
theorem summary_eq {r r' : RefreshReport}
    (hpulls : r'.pulls.map (fun marked => (marked.1.terms, marked.2)) =
      r.pulls.map fun marked => (marked.1.terms, marked.2))
    (hnext : r'.nextRefresh = r.nextRefresh) : r'.summary = r.summary := by
  have hcount : ∀ r : RefreshReport, r.emitted =
      (r.pulls.map fun marked => (marked.1.terms, marked.2)).countP (·.1.2.isOk) := by
    intro r
    rw [emitted, List.countP_map]
    refine List.countP_congr fun marked _ => ?_
    cases houtcome : marked.1.outcome <;>
      simp [Pull.isUniverse, Pull.terms, outcomeTerms, houtcome, Except.isOk, Except.toBool]
  rw [summary, summary, hcount, hcount, hpulls, hnext]

end RefreshReport

/-- Two engines with universes in force agree on some chains: the engines do, and the same is in
force for these chains. -/
structure AgreesOn (P : Symbol → Prop) (a : ActiveUniverses) (e : Engine) (b : ActiveUniverses)
    (f : Engine) : Prop extends engines : Engine.AgreesOn P e f where
  active : ∀ chain, P chain → b.terms? chain = a.terms? chain

namespace AgreesOn

variable {P Q R : Symbol → Prop} {a b c : ActiveUniverses} {e f g : Engine}

theorem refl (a : ActiveUniverses) (he : e.Steady) : AgreesOn P a e a e :=
  ⟨.refl he, fun _ _ => rfl⟩

theorem symm (h : AgreesOn P a e b f) : AgreesOn P b f a e :=
  ⟨h.engines.symm, fun chain hp => (h.active chain hp).symm⟩

theorem trans (h : AgreesOn P a e b f) (h' : AgreesOn P b f c g) : AgreesOn P a e c g :=
  ⟨h.engines.trans h'.engines,
    fun chain hp => (h'.active chain hp).trans (h.active chain hp)⟩

theorem imp (h : AgreesOn P a e b f) (hQ : ∀ chain, Q chain → P chain) : AgreesOn Q a e b f :=
  ⟨h.engines.imp hQ, fun chain hq => h.active chain (hQ chain hq)⟩

/-- What agrees on some chains and on others agrees on all of them. -/
theorem union (h : AgreesOn P a e b f) (h' : AgreesOn Q a e b f)
    (hor : ∀ chain, R chain → P chain ∨ Q chain) : AgreesOn R a e b f where
  left := h.left
  right := h.right
  facilities := h.facilities
  defaults := h.defaults
  registered := fun chain hr =>
    (hor chain hr).elim (h.registered chain) (h'.registered chain)
  active := fun chain hr => (hor chain hr).elim (h.active chain) (h'.active chain)

end AgreesOn

/-- The chains that a step at a time may touch for a model: none if it is not due. -/
def SelectionModel.dueChains (m : SelectionModel) (now : Instant) : List Symbol :=
  if m.isDue now then m.chainsAt now else []

namespace SelectionManager

variable {now : Instant} {number : Nat} {model model' : SelectionModel}
  {models models' : List SelectionModel} {a a' b : ActiveUniverses} {e e' f : Engine}
  {report : RefreshReport} {reports : List RefreshReport} {P : Symbol → Prop}

/-- A refresh by a manager drains the model's refresh, puts the universes in force and reports the
pulls with their marks. -/
theorem refreshModel_iff :
    refreshModel number model now a e = .ok (report, model', a', e') ↔
      ∃ pulls, (model.refresh (e.contextAt now)).1.drain e = .ok (pulls, e') ∧
        report = ⟨number, (activate a pulls).1, (model.refreshed now).nextRefresh⟩ ∧
        model' = model.refreshed now ∧ a' = (activate a pulls).2 := by
  simp only [refreshModel, Halt.bind_eq_ok]
  constructor
  · rintro ⟨⟨pulls, last⟩, hdrain, h⟩
    cases h
    exact ⟨pulls, hdrain, rfl, rfl, rfl⟩
  · rintro ⟨pulls, hdrain, rfl, rfl, rfl⟩
    exact ⟨_, hdrain, rfl⟩

/-- A refresh by a manager writes nothing but what is held for the chains that the selector
names. -/
theorem agreesOn_refreshModel (h : refreshModel number model now a e = .ok (report, model', a', e'))
    (he : e.Steady) : AgreesOn (· ∉ model.chainsAt now) a e a' e' := by
  obtain ⟨pulls, hdrain, -, -, rfl⟩ := refreshModel_iff.1 h
  refine ⟨SelectionModel.agreesOn_drain hdrain he, fun chain hchain => terms?_activate ?_⟩
  rintro p hp u hu rfl
  exact hchain (SelectionModel.chain_mem_of_drain hdrain hp hu)

/-- A refresh by a manager reads nothing but what is held for the chains that the selector names. -/
theorem refreshModel_transfer (h : refreshModel number model now a e = .ok (report, model', a', e'))
    (hagree : AgreesOn P a e b f) (hchains : ∀ chain ∈ model.chainsAt now, P chain)
    (number' : Nat) :
    ∃ report' b' f', refreshModel number' model now b f = .ok (report', model', b', f') ∧
      report'.summary = report.summary ∧ AgreesOn P a' e' b' f' ∧
      f'.tally.calls + e.tally.calls = e'.tally.calls + f.tally.calls := by
  obtain ⟨pulls, hdrain, rfl, rfl, rfl⟩ := refreshModel_iff.1 h
  obtain ⟨pulls', f', hdrain', hterms, hafter, hcalls⟩ :=
    SelectionModel.drain_transfer hdrain hagree.engines hchains
  obtain ⟨hmarked, hactive⟩ := activate_transfer hterms
    (fun p hp u hu => hchains _ (SelectionModel.chain_mem_of_drain hdrain hp hu)) hagree.active
  rw [show e.contextAt now = f.contextAt now by rw [Engine.contextAt, ← hagree.defaults]; rfl]
    at hdrain'
  exact ⟨_, _, f', refreshModel_iff.2 ⟨pulls', hdrain', rfl, rfl, rfl⟩,
    RefreshReport.summary_eq hmarked rfl, ⟨hafter, hactive⟩, hcalls⟩

theorem stepModels_cons_of_due {rest rest' : List SelectionModel} {a₁ : ActiveUniverses}
    {e₁ : Engine} (hdue : model.isDue now = true)
    (hrefresh : refreshModel number model now a e = .ok (report, model', a₁, e₁))
    (hrest : stepModels now (number + 1) a₁ e₁ rest = .ok (reports, rest', a', e')) :
    stepModels now number a e (model :: rest) =
      .ok (report :: reports, model' :: rest', a', e') := by
  simp [stepModels, hdue, hrefresh, hrest, bind, Except.bind, pure, Except.pure]

theorem stepModels_cons_of_not_due {rest rest' : List SelectionModel}
    (hdue : model.isDue now = false)
    (hrest : stepModels now (number + 1) a e rest = .ok (reports, rest', a', e')) :
    stepModels now number a e (model :: rest) = .ok (reports, model :: rest', a', e') := by
  simp [stepModels, hdue, hrest, bind, Except.bind, pure, Except.pure]

/-- A pass over some models and then over others is one pass. -/
theorem stepModels_append_iff {xs ys : List SelectionModel} :
    stepModels now number a e (xs ++ ys) = .ok (reports, models', a', e') ↔
      ∃ first xs' a₁ e₁ later ys',
        stepModels now number a e xs = .ok (first, xs', a₁, e₁) ∧
          stepModels now (number + xs.length) a₁ e₁ ys = .ok (later, ys', a', e') ∧
          reports = first ++ later ∧ models' = xs' ++ ys' := by
  induction xs generalizing number a e reports models' with
  | nil => simp [stepModels]
  | cons model rest ih =>
      have hnumber : number + (model :: rest).length = number + 1 + rest.length := by
        rw [List.length_cons]
        omega
      rw [hnumber]
      constructor
      · intro h
        rcases stepModels_cons_eq_ok h with
          ⟨hdue, report, a₀, e₀, reports', rest', hrefresh, hrest, rfl, rfl⟩ |
          ⟨hdue, rest', hrest, rfl⟩
        · obtain ⟨first, xs', a₁, e₁, later, ys', hfirst, hlater, rfl, rfl⟩ := ih.1 hrest
          exact ⟨_, _, a₁, e₁, later, ys', stepModels_cons_of_due hdue hrefresh hfirst, hlater,
            rfl, rfl⟩
        · obtain ⟨first, xs', a₁, e₁, later, ys', hfirst, hlater, rfl, rfl⟩ := ih.1 hrest
          exact ⟨_, _, a₁, e₁, later, ys', stepModels_cons_of_not_due hdue hfirst, hlater, rfl,
            rfl⟩
      · rintro ⟨first, xs', a₁, e₁, later, ys', hfirst, hlater, rfl, rfl⟩
        rcases stepModels_cons_eq_ok hfirst with
          ⟨hdue, report, a₀, e₀, reports', rest', hrefresh, hrest, rfl, rfl⟩ |
          ⟨hdue, rest', hrest, rfl⟩
        · exact stepModels_cons_of_due hdue hrefresh
            (ih.2 ⟨_, _, a₁, e₁, later, ys', hrest, hlater, rfl, rfl⟩)
        · exact stepModels_cons_of_not_due hdue
            (ih.2 ⟨_, _, a₁, e₁, later, ys', hrest, hlater, rfl, rfl⟩)

/-- A pass writes nothing but what is held for the chains of the models that are due. -/
theorem agreesOn_stepModels (h : stepModels now number a e models = .ok (reports, models', a', e'))
    (he : e.Steady) : AgreesOn (· ∉ models.flatMap (·.dueChains now)) a e a' e' := by
  induction models generalizing number a e reports models' with
  | nil =>
      cases h
      exact .refl _ he
  | cons model rest ih =>
      simp only [List.flatMap_cons, List.mem_append, not_or]
      rcases stepModels_cons_eq_ok h with
        ⟨hdue, report, a₁, e₁, reports', rest', hrefresh, hrest, rfl, rfl⟩ |
        ⟨hdue, rest', hrest, rfl⟩
      · have hfirst := agreesOn_refreshModel hrefresh he
        refine (hfirst.imp fun chain hchain => ?_).trans
          ((ih hrest hfirst.right).imp fun chain hchain => hchain.2)
        rw [SelectionModel.dueChains, if_pos hdue] at hchain
        exact hchain.1
      · exact (ih hrest he).imp fun chain hchain => hchain.2

/-- A pass reads nothing but what is held for the chains of the models that are due: where the same
is held for them, the pass does the same, whatever number it counts the models from. -/
theorem stepModels_transfer
    (h : stepModels now number a e models = .ok (reports, models', a', e'))
    (hagree : AgreesOn P a e b f)
    (hchains : ∀ chain ∈ models.flatMap (·.dueChains now), P chain) (number' : Nat) :
    ∃ reports' b' f', stepModels now number' b f models = .ok (reports', models', b', f') ∧
      reports'.map (·.summary) = reports.map (·.summary) ∧ AgreesOn P a' e' b' f' ∧
      f'.tally.calls + e.tally.calls = e'.tally.calls + f.tally.calls := by
  induction models generalizing number number' a e b f reports models' with
  | nil =>
      cases h
      exact ⟨[], b, f, rfl, rfl, hagree, Nat.add_comm _ _⟩
  | cons model rest ih =>
      rw [List.flatMap_cons, List.forall_mem_append] at hchains
      obtain ⟨hmodel, hothers⟩ := hchains
      rcases stepModels_cons_eq_ok h with
        ⟨hdue, report, a₁, e₁, later, rest', hrefresh, hrest, rfl, rfl⟩ |
        ⟨hdue, rest', hrest, rfl⟩
      · rw [SelectionModel.dueChains, if_pos hdue] at hmodel
        obtain ⟨report', b₁, f₁, hrefresh', hsummary, hmid, hcalls⟩ :=
          refreshModel_transfer hrefresh hagree hmodel number'
        obtain ⟨later', b', f', hrest', hsummaries, hafter, hmore⟩ :=
          ih hrest hmid hothers (number' + 1)
        refine ⟨_, b', f', stepModels_cons_of_due hdue hrefresh' hrest', ?_, hafter, by omega⟩
        rw [List.map_cons, List.map_cons, hsummary, hsummaries]
      · obtain ⟨later', b', f', hrest', hsummaries, hafter, hmore⟩ :=
          ih hrest hagree hothers (number' + 1)
        exact ⟨_, b', f', stepModels_cons_of_not_due hdue hrest', hsummaries, hafter, hmore⟩

end SelectionManager

end FuturesChains
