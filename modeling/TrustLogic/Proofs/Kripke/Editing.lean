import Mathlib.Data.List.Basic
import TrustLogic.Proofs.Kripke.Reachable

/-!
# Editing in place

`TrustLogic.Kripke.Model.edit` asks first whether anything is wrong with an edit, and then gives the
edited model in one go. Here the same edits are carried out in place and step by step: one check for
each condition, and then writing to an entry at a position, where only the checks that have come
before can tell that there is such an entry. Two things can go wrong in this way of editing that
cannot in the other. A position may be **out of bounds**, and a fault that is found late may leave a
model **half edited**. This file says that neither ever happens.

* `TrustLogic.Kripke.InPlace` – steps on a model, among them `TrustLogic.Kripke.InPlace.demand` for
  a check and `TrustLogic.Kripke.InPlace.entry` for a position;
  `TrustLogic.Kripke.InPlace.outcome` is what they come to.
* `TrustLogic.Kripke.Model.inPlace` – the steps of an edit, and `TrustLogic.Kripke.Model.afterAll` –
  edits one after another, whether they are refused or not.
* `TrustLogic.Kripke.Model.WellShaped.outcome_inPlace` – on a well-shaped model the steps come to
  what `edit` says.

The shape is what makes the positions safe, since the checks compare with the number of worlds and
never look at the rows. No sequence of edits loses it (`TrustLogic.Kripke.Model.edits_keep_shape`).
-/

namespace TrustLogic.Kripke

/-! ### Steps -/

/-- Steps that change a model in place. A fault ends them and leaves the model as the steps before
it have made it. A position that is out of bounds ends them and leaves nothing. -/
abbrev InPlace := ExceptT ModelError (StateT Model Option)

namespace InPlace

variable {α β : Type} {m n : Model}

/-- What some steps come to on a model: an answer and the model afterwards, or nothing at all if a
position is out of bounds. -/
def outcome (steps : InPlace α) (m : Model) : Option (Except ModelError α × Model) :=
  (ExceptT.run steps).run m

/-- Goes on only if nothing is wrong with the model as it is. -/
def demand (fault? : Model → Option ModelError) : InPlace Unit := do
  match fault? (← get) with
  | some fault => throw fault
  | none => pure ()

/-- The entry at a position, which has to be there. -/
def entry (as : List α) (i : Nat) : InPlace α :=
  liftM as[i]?

/-- The answer and the model afterwards of an edit that changes the model from `m` to `n` unless
something is wrong. -/
def settled (m : Model) (fault? : Option ModelError) (n : Model) : Except ModelError Unit × Model :=
  match fault? with
  | some fault => (.error fault, m)
  | none => (.ok (), n)

theorem outcome_get_bind (f : Model → InPlace α) : (get >>= f).outcome m = (f m).outcome m := rfl

theorem outcome_set : (set n : InPlace Unit).outcome m = some (settled m none n) := rfl

theorem outcome_throw (fault : ModelError) :
    (throw fault : InPlace Unit).outcome m = some (settled m (some fault) n) := rfl

theorem outcome_entry_bind {as : List α} {i : Nat} {a : α} (h : as[i]? = some a)
    (f : α → InPlace β) : (entry as i >>= f).outcome m = (f a).outcome m := by
  rw [entry, h]
  rfl

/-- **One check after another**: the first fault is the one that counts, and no check changes
anything. -/
theorem outcome_demand_bind {fault? : Model → Option ModelError} {rest? : Option ModelError}
    {steps : InPlace Unit} (h : fault? m = none → steps.outcome m = some (settled m rest? n)) :
    (demand fault? >>= fun _ => steps).outcome m
      = some (settled m ((fault? m).or rest?) n) := by
  rw [demand, bind_assoc, outcome_get_bind]
  rcases hfault : fault? m with _ | fault
  · exact h hfault
  · rfl

/-- The last check. -/
theorem outcome_demand_bind_last {fault? : Model → Option ModelError} {steps : InPlace Unit}
    (h : fault? m = none → steps.outcome m = some (settled m none n)) :
    (demand fault? >>= fun _ => steps).outcome m = some (settled m (fault? m) n) := by
  rw [outcome_demand_bind h, Option.or_none]

end InPlace

/-! ### Edits -/

namespace Model

open InPlace

variable {m : Model}

/-- Writes an entry of the relation, after its row and then the entry itself have been looked up. -/
def writeRelation (source target : Nat) (seen : Bool) : InPlace Unit := do
  let m ← get
  let row ← entry m.relation source
  let _ ← entry row target
  set { m with relation := m.relation.set source (row.set target seen) }

/-- Writes an entry of a variable, which has to be in the table. -/
def writeValue (s : Side) (name : String) (w : Nat) (evident : Bool) : InPlace Unit := do
  let m ← get
  match (m.table s)[name]? with
  | none => throw (.noVariable s name)
  | some values =>
    let _ ← entry values w
    set (m.withTable s ((m.table s).insert name (values.set w evident)))

/-- **The steps of an edit**: what is wrong with it comes to light before anything is written. -/
def inPlace : Edit → InPlace Unit
  | .relation source target value => do
    demand (·.worldFault? source)
    demand (·.worldFault? target)
    demand fun _ => if isBit value then none else some (.relationEntry source target value)
    writeRelation source target (bitOf value)
  | .values s name values => do
    demand (valuesFault? ·.worlds s name values)
    let m ← get
    set (m.withTable s ((m.table s).insert name (values.map bitOf)))
  | .value s name w value => do
    demand (·.worldFault? w)
    demand fun _ => if isBit value then none else some (.valueEntry s name w value)
    writeValue s name w (bitOf value)

theorem worldFault?_eq_none_iff {w : Nat} : m.worldFault? w = none ↔ w < m.worlds := by
  rw [worldFault?]
  split <;> simp_all

/-- An entry of the relation can be written where both worlds exist. -/
theorem WellShaped.outcome_writeRelation (hm : m.WellShaped) {source target : Nat}
    (hsource : source < m.worlds) (htarget : target < m.worlds) (value : Int) :
    (writeRelation source target (bitOf value)).outcome m
      = some (settled m none (m.edited (.relation source target value))) := by
  obtain ⟨row, hrow⟩ : ∃ row, m.relation[source]? = some row :=
    ⟨_, List.getElem?_eq_getElem (hm.length_relation.symm ▸ hsource)⟩
  obtain ⟨old, hold⟩ : ∃ old, row[target]? = some old :=
    ⟨_, List.getElem?_eq_getElem (hm.length_row source row hrow ▸ htarget)⟩
  rw [writeRelation, outcome_get_bind, outcome_entry_bind hrow, outcome_entry_bind hold,
    outcome_set, Model.edited, List.modify_eq_set_getElem?, hrow]
  rfl

/-- An entry of a variable can be written where the world exists, unless the variable does not. -/
theorem WellShaped.outcome_writeValue (hm : m.WellShaped) (s : Side) (name : String) {w : Nat}
    (hw : w < m.worlds) (value : Int) :
    (writeValue s name w (bitOf value)).outcome m
      = some (settled m (if (m.table s).contains name then none else some (.noVariable s name))
          (m.edited (.value s name w value))) := by
  rw [writeValue, outcome_get_bind, Std.ExtTreeMap.contains_eq_isSome_getElem?]
  rcases hvalues : (m.table s)[name]? with _ | values
  · exact outcome_throw _
  · obtain ⟨old, hold⟩ : ∃ old, values[w]? = some old :=
      ⟨_, List.getElem?_eq_getElem (hm.length_values s name values hvalues ▸ hw)⟩
    have htable : (m.table s).insert name (values.set w (bitOf value))
        = (m.table s).modify name (·.set w (bitOf value)) := by
      refine Std.ExtTreeMap.ext_getElem? fun name' => ?_
      rw [Std.ExtTreeMap.getElem?_insert, Std.ExtTreeMap.getElem?_modify, hvalues]
      rfl
    rw [outcome_entry_bind hold, outcome_set, htable]
    rfl

/-- **Editing in place does what `edit` says.** On a well-shaped model no position is out of bounds,
a fault leaves the model as it was, and without a fault the whole edit is carried out. -/
theorem WellShaped.outcome_inPlace (hm : m.WellShaped) (e : Edit) :
    (inPlace e).outcome m = some (settled m (m.editFault? e) (m.edited e)) := by
  cases e with
  | relation source target value =>
    refine outcome_demand_bind fun hsource => outcome_demand_bind fun htarget => ?_
    refine outcome_demand_bind_last fun _ => ?_
    exact hm.outcome_writeRelation (worldFault?_eq_none_iff.mp hsource)
      (worldFault?_eq_none_iff.mp htarget) value
  | values s name values => exact outcome_demand_bind_last fun _ => rfl
  | value s name w value =>
    refine outcome_demand_bind fun hw => outcome_demand_bind fun _ => ?_
    exact hm.outcome_writeValue s name (worldFault?_eq_none_iff.mp hw) value

/-! ### Edits one after another -/

theorem worlds_edited (m : Model) (e : Edit) : (m.edited e).worlds = m.worlds := by
  cases e with
  | relation source target value => rfl
  | values s name values => exact worlds_withTable _ _ _
  | value s name w value => exact worlds_withTable _ _ _

/-- **One edit**: it is answered as `edit` answers it, and it keeps the worlds and the shape. An
edit that is refused keeps the whole model. -/
theorem WellShaped.step (hm : m.WellShaped) (e : Edit) :
    ∃ answer n, (inPlace e).outcome m = some (answer, n) ∧
      n.worlds = m.worlds ∧ n.WellShaped ∧
      (∀ fault, answer = .error fault → n = m) ∧ m.edit e = answer.map fun _ => n := by
  rw [hm.outcome_inPlace e, edit]
  rcases hfault : m.editFault? e with _ | fault
  · refine ⟨.ok (), m.edited e, rfl, worlds_edited m e, hm.edited hfault, ?_, rfl⟩
    rintro fault ⟨⟩
  · exact ⟨.error fault, m, rfl, rfl, hm, fun _ _ => rfl, rfl⟩

/-- The answers to some edits, one after another, and the model after them. An edit is carried out
on what the one before it has left, whether this was refused or not. -/
def afterAll (m : Model) : List Edit → Option (List (Except ModelError Unit) × Model)
  | [] => some ([], m)
  | e :: es => do
    let (answer, n) ← (inPlace e).outcome m
    let (answers, k) ← n.afterAll es
    return (answer :: answers, k)

/-- **All edits**: each of them is answered, and the shape and the worlds are kept. -/
theorem WellShaped.afterAll (hm : m.WellShaped) (es : List Edit) :
    ∃ answers n, m.afterAll es = some (answers, n) ∧ n.worlds = m.worlds ∧ n.WellShaped := by
  induction es generalizing m with
  | nil => exact ⟨[], m, rfl, rfl, hm⟩
  | cons e es ih =>
    obtain ⟨answer, n, hstep, hworlds, hn, -⟩ := hm.step e
    obtain ⟨answers, k, hrun, hworlds', hk⟩ := ih hn
    refine ⟨answer :: answers, k, ?_, hworlds'.trans hworlds, hk⟩
    simp [Model.afterAll, hstep, hrun]

/-- **Edits keep the shape, and refused edits keep everything.** A model that is built from a draft,
given at once or put together in steps, is edited in place any number of times, by edits that may be
refused. No position is ever out of bounds; the model still has the worlds of the draft, and its
relation and its tables have an entry for each of them. The next edit, whatever it says, is answered
too. If the answer is a fault, then the model is exactly as it was before, and in any case answer
and model are those of `edit`. -/
theorem edits_keep_shape {d : Draft} (hd : d.build = .ok m) (es : List Edit) :
    ∃ answers n, m.afterAll es = some (answers, n) ∧ n.worlds = d.worlds ∧ n.WellShaped ∧
      ∀ e, ∃ answer n', (inPlace e).outcome n = some (answer, n') ∧
        (∀ fault, answer = .error fault → n' = n) ∧ n.edit e = answer.map fun _ => n' := by
  obtain ⟨hfault, rfl⟩ := Draft.build_eq_ok_iff.mp hd
  obtain ⟨answers, n, hrun, hworlds, hn⟩ := (Draft.wellShaped_model hfault).afterAll es
  refine ⟨answers, n, hrun, hworlds, hn, fun e => ?_⟩
  obtain ⟨answer, n', hstep, -, -, hkept, hedit⟩ := hn.step e
  exact ⟨answer, n', hstep, hkept, hedit⟩

/-- A draft of two worlds that see themselves. -/
def twoWorlds : Draft := { worlds := 2, reflexive := true }

/-- Edits for two worlds, half of which have a fault: the second of two worlds is out of range, a
variable is not there yet, and an entry is no truth value. -/
def halfRefused : List Edit :=
  [.relation 0 1 1, .relation 0 2 1, .value .pro "p" 0 1, .values .pro "p" [1, 0],
    .value .pro "p" 1 2, .value .pro "p" 1 1]

/-- Three of the edits are refused, and what the others write is there in the end. -/
theorem edits_keep_shape_twoWorlds :
    (∃ m, twoWorlds.build = .ok m ∧
      ∃ answers n, m.afterAll halfRefused = some (answers, n) ∧ n.worlds = 2 ∧ n.WellShaped ∧
        ∀ e, ∃ answer n', (inPlace e).outcome n = some (answer, n') ∧
          (∀ fault, answer = .error fault → n' = n) ∧ n.edit e = answer.map fun _ => n') ∧
    (twoWorlds.model.afterAll halfRefused).map (·.1) =
      some [.ok (), .error (.noWorld 2 2), .error (.noVariable .pro "p"), .ok (),
        .error (.valueEntry .pro "p" 1 2), .ok ()] ∧
    (twoWorlds.model.afterAll halfRefused).map (·.2.relation) =
      some [[true, true], [false, true]] ∧
    (twoWorlds.model.afterAll halfRefused).bind (·.2.value? .pro "p" 1) = some true := by
  have hbuild : twoWorlds.build = .ok twoWorlds.model := rfl
  refine ⟨⟨twoWorlds.model, hbuild, edits_keep_shape hbuild halfRefused⟩, ?_, ?_, ?_⟩
  · rfl
  · rfl
  · rfl

end Model

end TrustLogic.Kripke
