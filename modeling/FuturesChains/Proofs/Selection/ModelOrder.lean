import FuturesChains.Proofs.Selection.ActiveOrder
import FuturesChains.Proofs.Selection.ChainOwner
import FuturesChains.Proofs.Selection.StepLocality

/-!
# The order of independent models

Models are `Apart` at a time if no chain is named by two of them that are due. Such models may be
passed over in any order: neighbours are swapped by `SelectionManager.stepModels_swap`, since each
leaves what the other reads, and `SelectionManager.stepModels_perm` is by induction on the
permutation. By the same lemmas one model may stand in the place of another, whatever errors it ends
with, and the others do as before (`SelectionManager.stepModels_replace`).
-/

namespace FuturesChains

/-- No chain is touched by two of the models in a step at a time. -/
def Apart (now : Instant) (models : List SelectionModel) : Prop :=
  models.Pairwise fun m other => ∀ chain ∈ m.dueChains now, chain ∉ other.dueChains now

instance (now : Instant) (models : List SelectionModel) : Decidable (Apart now models) :=
  inferInstanceAs (Decidable (List.Pairwise _ models))

namespace Apart

variable {now : Instant} {models models' : List SelectionModel}

theorem perm (h : Apart now models) (hperm : models.Perm models') : Apart now models' :=
  (hperm.pairwise_iff fun hdisjoint chain hchain hother => hdisjoint chain hother hchain).1 h

theorem sublist (h : Apart now models) (hsub : models'.Sublist models) : Apart now models' :=
  List.Pairwise.sublist hsub h

/-- What the first of some models that are apart touch, the others do not. -/
theorem disjoint {xs ys : List SelectionModel} (h : Apart now (xs ++ ys)) :
    ∀ chain ∈ xs.flatMap (·.dueChains now), chain ∉ ys.flatMap (·.dueChains now) := by
  intro chain hx hy
  obtain ⟨m, hm, hchain⟩ := List.mem_flatMap.1 hx
  obtain ⟨other, hother, hchain'⟩ := List.mem_flatMap.1 hy
  exact (List.pairwise_append.1 h).2.2 m hm other hother chain hchain hchain'

/-- What a model among some that are apart touches, those in front of it and those behind it do
not. -/
theorem middle {before behind : List SelectionModel} {m : SelectionModel}
    (h : Apart now (before ++ m :: behind)) :
    (∀ chain ∈ m.dueChains now, chain ∉ before.flatMap (·.dueChains now)) ∧
      ∀ chain ∈ behind.flatMap (·.dueChains now), chain ∉ m.dueChains now := by
  have hbehind : Apart now ([m] ++ behind) := h.sublist (List.sublist_append_right ..)
  refine ⟨fun chain hchain hmem => ?_, fun chain hchain hmem => ?_⟩
  · exact h.disjoint chain hmem (List.mem_flatMap.2 ⟨m, List.mem_cons_self, hchain⟩)
  · exact hbehind.disjoint chain (by simpa using hmem) hchain

end Apart

/-- Two lists that differ in one model have the same other models. -/
theorem getElem?_of_ne {before behind : List SelectionModel} (x y : SelectionModel) {i : Nat}
    (hi : i ≠ before.length) : (before ++ x :: behind)[i]? = (before ++ y :: behind)[i]? := by
  rcases Nat.lt_or_gt_of_ne hi with hlt | hgt
  · rw [List.getElem?_append_left hlt, List.getElem?_append_left hlt]
  · obtain ⟨k, rfl⟩ := Nat.exists_eq_add_of_lt hgt
    simp [List.getElem?_append_right, Nat.add_assoc]

namespace SelectionManager

variable {now : Instant} {number number' : Nat} {models models' xs ys : List SelectionModel}
  {a a' b : ActiveUniverses} {e e' f : Engine} {reports : List RefreshReport}

/-- Two passes that touch no common chain may be made in either order. -/
theorem stepModels_swap (h : stepModels now number a e (xs ++ ys) = .ok (reports, models', a', e'))
    (hagree : AgreesOn Everywhere a e b f)
    (hapart : ∀ chain ∈ xs.flatMap (·.dueChains now), chain ∉ ys.flatMap (·.dueChains now))
    (number' : Nat) :
    ∃ reports' models'' b' f',
      stepModels now number' b f (ys ++ xs) = .ok (reports', models'', b', f') ∧
        (reports'.map (·.summary)).Perm (reports.map (·.summary)) ∧
        AgreesOn Everywhere a' e' b' f' ∧
        f'.tally.calls + e.tally.calls = e'.tally.calls + f.tally.calls := by
  obtain ⟨first, xs', a₁, e₁, later, ys', hfirst, hlater, rfl, rfl⟩ := stepModels_append_iff.1 h
  -- the second pass does the same before the first one, which leaves its chains alone
  have hx := agreesOn_stepModels hfirst hagree.left
  obtain ⟨later', b₁, f₁, hlater', hsame, hafter, hcalls⟩ := stepModels_transfer hlater
    (hx.symm.trans (hagree.imp fun _ _ => trivial))
    (fun chain hchain hmem => hapart chain hmem hchain) number'
  have hy := agreesOn_stepModels hlater' hagree.right
  obtain ⟨first', b', f', hfirst', hsame', hafter', hcalls'⟩ := stepModels_transfer hfirst
    ((hagree.imp fun _ _ => trivial).trans hy) hapart (number' + ys.length)
  refine ⟨_, _, b', f', stepModels_append_iff.2
    ⟨later', ys', b₁, f₁, first', xs', hlater', hfirst', rfl, rfl⟩, ?_, ?_, by omega⟩
  · rw [List.map_append, List.map_append, hsame, hsame']
    exact List.perm_append_comm
  · have hx' := agreesOn_stepModels hfirst' hy.right
    have hy' := agreesOn_stepModels hlater hx.right
    refine (hafter.trans hx').union (hy'.symm.trans hafter') fun chain _ => ?_
    by_cases hmem : chain ∈ xs.flatMap (·.dueChains now)
    · exact .inr (hapart chain hmem)
    · exact .inl hmem

/-- Independent models give the same in every order. -/
theorem stepModels_perm (hperm : models.Perm models') (hapart : Apart now models)
    (hagree : AgreesOn Everywhere a e b f) {after : List SelectionModel}
    (h : stepModels now number a e models = .ok (reports, after, a', e')) (number' : Nat) :
    ∃ reports' after' b' f',
      stepModels now number' b f models' = .ok (reports', after', b', f') ∧
        (reports'.map (·.summary)).Perm (reports.map (·.summary)) ∧
        AgreesOn Everywhere a' e' b' f' ∧
        f'.tally.calls + e.tally.calls = e'.tally.calls + f.tally.calls := by
  induction hperm generalizing number number' a e b f reports after a' e' with
  | nil =>
      cases h
      exact ⟨[], [], b, f, rfl, .refl _, hagree, Nat.add_comm _ _⟩
  | @cons model rest rest' hrest ih =>
      rw [← List.singleton_append, stepModels_append_iff] at h
      obtain ⟨first, _, a₁, e₁, later, _, hfirst, hlater, rfl, rfl⟩ := h
      obtain ⟨first', b₁, f₁, hfirst', hsame, hmid, hcalls⟩ :=
        stepModels_transfer hfirst hagree (fun _ _ => trivial) number'
      obtain ⟨later', _, b', f', hlater', hperm, hafter, hmore⟩ :=
        ih (List.pairwise_cons.1 hapart).2 hmid hlater (number' + 1)
      refine ⟨_, _, b', f', stepModels_append_iff.2
        ⟨first', _, b₁, f₁, later', _, hfirst', hlater', rfl, rfl⟩, ?_, hafter, by omega⟩
      rw [List.map_append, List.map_append, hsame]
      exact hperm.append_left _
  | swap x y rest =>
      rw [show y :: x :: rest = ([y] ++ [x]) ++ rest from rfl, stepModels_append_iff] at h
      obtain ⟨first, _, a₁, e₁, later, _, hfirst, hlater, rfl, rfl⟩ := h
      have hdisjoint : ∀ chain ∈ [y].flatMap (·.dueChains now),
          chain ∉ [x].flatMap (·.dueChains now) := by
        simpa using (List.pairwise_cons.1 hapart).1 x List.mem_cons_self
      obtain ⟨first', _, b₁, f₁, hfirst', hsame, hmid, hcalls⟩ :=
        stepModels_swap hfirst hagree hdisjoint number'
      obtain ⟨later', b', f', hlater', hsame', hafter, hmore⟩ :=
        stepModels_transfer hlater hmid (fun _ _ => trivial) (number' + 2)
      refine ⟨_, _, b', f', stepModels_append_iff.2
        ⟨first', _, b₁, f₁, later', _, hfirst', hlater', rfl, rfl⟩, ?_, hafter, by omega⟩
      rw [List.map_append, List.map_append, hsame']
      exact hsame.append_right _
  | @trans models mid models' hfirst hsecond ih ih' =>
      obtain ⟨reports₁, _, b₁, f₁, hmid, hsame, hagree₁, hcalls⟩ := ih hapart hagree h number
      obtain ⟨reports₂, after', b₂, f₂, hlast, hsame', hagree₂, hmore⟩ :=
        ih' (hapart.perm hfirst) (.refl b hagree.right) hmid number'
      exact ⟨reports₂, after', b₂, f₂, hlast, hsame'.trans hsame, hagree₁.trans hagree₂, by omega⟩

/-- A pass stamps the models that are due, whatever their refreshes give. -/
theorem models_stepModels {after : List SelectionModel}
    (h : stepModels now number a e models = .ok (reports, after, a', e')) :
    after = models.map fun m => if m.isDue now then m.refreshed now else m := by
  induction models generalizing number a e reports after with
  | nil =>
      cases h
      rfl
  | cons model rest ih =>
      rcases stepModels_cons_eq_ok h with
        ⟨hdue, report, a₁, e₁, later, rest', hrefresh, hrest, rfl, rfl⟩ | ⟨hdue, rest', hrest, rfl⟩
      · simp [hdue, ih hrest]
      · simp [hdue, ih hrest]

/-- The reports of a pass are numbered by the models that are due. -/
theorem numbers_stepModels {after : List SelectionModel}
    (h : stepModels now number a e models = .ok (reports, after, a', e')) :
    reports.map (·.model) =
      ((models.zipIdx number).filter fun (m, _) => m.isDue now).map (·.2) := by
  induction models generalizing number a e reports after with
  | nil =>
      cases h
      rfl
  | cons model rest ih =>
      rcases stepModels_cons_eq_ok h with
        ⟨hdue, report, a₁, e₁, later, rest', hrefresh, hrest, rfl, rfl⟩ | ⟨hdue, rest', hrest, rfl⟩
      · obtain ⟨-, hnumber, -⟩ := refreshModel_eq_ok hrefresh
        simp [hdue, hnumber, ih hrest]
      · simp [hdue, ih hrest]

theorem number_le_stepModels {after : List SelectionModel}
    (h : stepModels now number a e models = .ok (reports, after, a', e')) :
    ∀ r ∈ reports, number ≤ r.model ∧ r.model < number + models.length := by
  intro r hr
  have hmem := List.mem_map_of_mem (f := (·.model)) hr
  rw [numbers_stepModels h] at hmem
  obtain ⟨⟨m, i⟩, hi, heq⟩ := List.mem_map.1 hmem
  have := List.mem_zipIdx (List.mem_filter.1 hi).1
  simp only at heq
  omega

theorem number_eq_stepModels {model : SelectionModel} {after : List SelectionModel}
    (h : stepModels now number a e [model] = .ok (reports, after, a', e')) :
    ∀ r ∈ reports, r.model = number := by
  intro r hr
  have := number_le_stepModels h r hr
  simp only [List.length_singleton] at this
  omega

/-- Passes over the same models whose reports say the same say so under the same numbers. -/
theorem numbered_stepModels {after after' : List SelectionModel} {reports' : List RefreshReport}
    (h : stepModels now number a e models = .ok (reports, after, a', e')) {b' : ActiveUniverses}
    {f' : Engine} (h' : stepModels now number b f models = .ok (reports', after', b', f'))
    (hsummaries : reports'.map (·.summary) = reports.map (·.summary)) :
    reports'.map (fun r => (r.model, r.summary)) = reports.map fun r => (r.model, r.summary) := by
  have hnumbers : reports'.map (·.model) = reports.map (·.model) :=
    (numbers_stepModels h').trans (numbers_stepModels h).symm
  have hzip := congrArg₂ List.zip hnumbers hsummaries
  rwa [List.zip_map', List.zip_map'] at hzip

/-- What the reports of all models but one say, with the numbers of the models. -/
def reportsBut (number : Nat) (reports : List RefreshReport) :
    List (Nat × List ((Symbol × Except SelectionError UniverseTerms) × Bool) × Nat × Instant) :=
  (reports.filter (·.model ≠ number)).map fun r => (r.model, r.summary)

/-- The reports of three passes without those of the one model in the middle. -/
theorem reportsBut_append {first mine later : List RefreshReport}
    (hfirst : ∀ r ∈ first, r.model < number) (hmine : ∀ r ∈ mine, r.model = number)
    (hlater : ∀ r ∈ later, number < r.model) :
    reportsBut number (first ++ (mine ++ later)) =
      (first ++ later).map fun r => (r.model, r.summary) := by
  have hfront : first.filter (·.model ≠ number) = first :=
    List.filter_eq_self.2 fun r hr => by simpa using (hfirst r hr).ne
  have hmiddle : mine.filter (·.model ≠ number) = [] :=
    List.filter_eq_nil_iff.2 fun r hr => by simpa using hmine r hr
  have hback : later.filter (·.model ≠ number) = later :=
    List.filter_eq_self.2 fun r hr => by simpa using (hlater r hr).ne'
  rw [reportsBut, List.filter_append, List.filter_append, hfront, hmiddle, hback, List.nil_append]

/-- A refresh that gives an answer on its own is a pass. -/
theorem exists_stepModels_singleton {model : SelectionModel} (number : Nat) (a : ActiveUniverses)
    (hanswers : model.isDue now = true →
      ∃ pulls after, (model.refresh (e.contextAt now)).1.drain e = .ok (pulls, after)) :
    ∃ reports after a' e', stepModels now number a e [model] = .ok (reports, after, a', e') := by
  cases hdue : model.isDue now with
  | false => exact ⟨_, _, _, _, stepModels_cons_of_not_due hdue rfl⟩
  | true =>
      obtain ⟨pulls, after, hdrain⟩ := hanswers hdue
      exact ⟨_, _, _, _, stepModels_cons_of_due hdue
        (refreshModel_iff.2 ⟨pulls, hdrain, rfl, rfl, rfl⟩) rfl⟩

/-- One model in the place of another changes nothing for the other models and their chains. -/
theorem stepModels_replace {before behind after : List SelectionModel} {x y : SelectionModel}
    (h : stepModels now number a e (before ++ x :: behind) = .ok (reports, after, a', e'))
    (he : e.Steady) (hx : Apart now (before ++ x :: behind))
    (hy : Apart now (before ++ y :: behind))
    (hanswers : y.isDue now = true →
      ∃ pulls last, (y.refresh (e.contextAt now)).1.drain e = .ok (pulls, last)) :
    ∃ reports' after' b' f',
      stepModels now number a e (before ++ y :: behind) = .ok (reports', after', b', f') ∧
        reportsBut (number + before.length) reports' =
          reportsBut (number + before.length) reports ∧
        AgreesOn (fun chain => chain ∉ x.dueChains now ∧ chain ∉ y.dueChains now) a' e' b' f' := by
  rw [← List.singleton_append, stepModels_append_iff] at h
  obtain ⟨first, _, a₁, e₁, rest, _, hfirst, hrest, rfl, rfl⟩ := h
  rw [stepModels_append_iff] at hrest
  obtain ⟨mine, _, a₂, e₂, later, _, hmine, hlater, rfl, rfl⟩ := hrest
  have hfront := agreesOn_stepModels hfirst he
  -- the new model would do the same before the models in front of it
  obtain ⟨_, _, _, _, halone⟩ := exists_stepModels_singleton 0 a hanswers
  obtain ⟨yours, b₂, f₂, hyours, -⟩ := stepModels_transfer halone hfront
    (by rw [List.flatMap_singleton]; exact hy.middle.1) (number + before.length)
  have hmid := agreesOn_stepModels hmine hfront.right
  have hmid' := agreesOn_stepModels hyours hfront.right
  rw [List.flatMap_singleton] at hmid hmid'
  have hagree : AgreesOn (fun chain => chain ∉ x.dueChains now ∧ chain ∉ y.dueChains now)
      a₂ e₂ b₂ f₂ :=
    (hmid.symm.imp fun _ hchain => hchain.1).trans (hmid'.imp fun _ hchain => hchain.2)
  obtain ⟨later', b', f', hlater', hsummaries, hafter, -⟩ := stepModels_transfer hlater hagree
    (fun chain hchain => ⟨hx.middle.2 chain hchain, hy.middle.2 chain hchain⟩)
    (number + before.length + 1)
  have hpass := stepModels_append_iff.2 ⟨first, _, a₁, e₁, _, _, hfirst,
    stepModels_append_iff.2 ⟨yours, _, b₂, f₂, later', _, hyours, hlater', rfl, rfl⟩, rfl, rfl⟩
  refine ⟨first ++ (yours ++ later'), _, b', f', hpass, ?_, hafter⟩
  have hbefore : ∀ r ∈ first, r.model < number + before.length := fun r hr =>
    (number_le_stepModels hfirst r hr).2
  have hbehind : ∀ r ∈ later, number + before.length < r.model := fun r hr =>
    (number_le_stepModels hlater r hr).1
  have hbehind' : ∀ r ∈ later', number + before.length < r.model := fun r hr =>
    (number_le_stepModels hlater' r hr).1
  rw [reportsBut_append hbefore (number_eq_stepModels hyours) hbehind',
    reportsBut_append hbefore (number_eq_stepModels hmine) hbehind, List.map_append,
    List.map_append, numbered_stepModels hlater hlater' hsummaries]

/-- Reports that say the same, in any order, count as many universes. -/
theorem emitted_eq_of_perm {others : List RefreshReport}
    (h : (others.map (·.summary)).Perm (reports.map (·.summary))) :
    emitted others = emitted reports := by
  have hcounts := (h.map (·.2.1)).sum_nat
  rw [List.map_map, List.map_map] at hcounts
  rw [emitted_eq_sum, emitted_eq_sum]
  exact hcounts

/-- A step is a pass over all models from the first number on. -/
theorem step_iff {m m' : SelectionManager} :
    m.step e = .ok (reports, m', e') ↔
      stepModels e.clock 0 m.universes e m.models = .ok (reports, m'.models, m'.universes, e') := by
  simp only [step, Halt.bind_eq_ok]
  constructor
  · rintro ⟨⟨_, models, universes, last⟩, hmodels, h⟩
    cases h
    exact hmodels
  · intro hmodels
    exact ⟨_, hmodels, rfl⟩

end SelectionManager

end FuturesChains
