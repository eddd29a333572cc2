import Mathlib.Data.List.Basic
import TrustLogic.Kripke.Semantics
import TrustLogic.Proofs.Formula.Variables
import TrustLogic.Proofs.Kripke.Reachable

/-!
# The meaning of formulas in a model

The evidence for a formula is computed for all worlds at once, in lists that are looked up by
position. This file compares it with the definition that looks at one world at a time.

* `TrustLogic.Kripke.Model.meaning` – the evidence for a formula at a world, by recursion on the
  formula. A modality asks for the evidence for its operand at every world in sight, and a variable
  without an entry counts as one without evidence.
* `TrustLogic.Kripke.Model.firstFault?` – the first thing that is wrong with evaluating a formula.
  The faults are found by walking through its nodes, in the order in which the formula is read, and
  neither the relation nor the world matters for them.

`TrustLogic.Kripke.Model.evaluate_eq_meaning` says that evaluating gives the meaning, or the first
fault. It needs the shape that all models that come about have: no list is too short for the
positions at which it is looked up.
-/

namespace TrustLogic

/-- A value, unless there is a fault. -/
def unlessFault {ε α : Type} (fault : Option ε) (a : α) : Except ε α :=
  match fault with
  | some e => .error e
  | none => .ok a

section UnlessFault

variable {ε α β γ : Type}

@[simp] theorem unlessFault_none (a : α) : unlessFault (none : Option ε) a = .ok a := rfl

@[simp] theorem unlessFault_some (e : ε) (a : α) : unlessFault (some e) a = .error e := rfl

theorem unlessFault_eq_ok_iff {fault : Option ε} {a b : α} :
    unlessFault fault a = .ok b ↔ fault = none ∧ a = b := by
  cases fault <;> simp

theorem map_unlessFault (f : α → β) (fault : Option ε) (a : α) :
    (unlessFault fault a).map f = unlessFault fault (f a) := by
  cases fault <;> rfl

/-- The fault of two values is the fault of the first one, if there is one. -/
theorem bind_unlessFault (f : α → β → γ) (fault fault' : Option ε) (a : α) (b : β) :
    ((unlessFault fault a).bind fun a => (unlessFault fault' b).map (f a))
      = unlessFault (fault.or fault') (f a b) := by
  cases fault
  · exact map_unlessFault (f a) fault' b
  · rfl

end UnlessFault

/-- The nodes of a formula in the order in which it is read, each with its depth and with the
formula whose root it is. The root has the given depth. -/
def Formula.nodes (depth : Nat) : Formula → List (Nat × Formula)
  | .var name => [(depth, .var name)]
  | .unary op φ => (depth, .unary op φ) :: φ.nodes (depth + 1)
  | .binary op φ ψ => (depth, .binary op φ ψ) :: (φ.nodes (depth + 1) ++ ψ.nodes (depth + 1))

namespace Kripke

/-- **The tables of the connectives.** The truth values are ordered with `false` below `true`. -/
def Evidence.table : Binary → Evidence → Evidence → Evidence
  | .conjunction, a, b => ⟨max a.pro b.pro, min a.con b.con⟩
  | .disjunction, a, b => ⟨min a.pro b.pro, max a.con b.con⟩
  | .implication, a, b =>
    ⟨if a.pro ≤ b.pro then true else b.pro, if b.con ≤ a.con then false else b.con⟩
  | .coimplication, a, b =>
    ⟨if a.pro ≤ b.pro then false else a.pro, if b.con ≤ a.con then true else a.con⟩

theorem Evidence.binary_eq_table (op : Binary) (a b : Evidence) :
    Evidence.binary op a b = Evidence.table op a b := by
  rcases a with ⟨_ | _, _ | _⟩ <;> rcases b with ⟨_ | _, _ | _⟩ <;> cases op <;> rfl

namespace Model

/-! ### Meaning -/

/-- The worlds in sight of a world, out of all worlds. -/
def inSight (m : Model) (w : Nat) : List Nat :=
  (List.range m.worlds).filter (m.sees w)

/-- **The evidence for a formula at a world**, one world at a time. -/
def meaning (m : Model) : Formula → Nat → Evidence
  | .var name, w => ⟨(m.value? .pro name w).getD false, (m.value? .con name w).getD false⟩
  | .unary .negation φ, w => ⟨(m.meaning φ w).con, (m.meaning φ w).pro⟩
  | .unary (.modal .box) φ, w =>
    ⟨(m.inSight w).all fun v => (m.meaning φ v).pro, (m.inSight w).any fun v => (m.meaning φ v).con⟩
  | .unary (.modal .diamond) φ, w =>
    ⟨(m.inSight w).any fun v => (m.meaning φ v).pro, (m.inSight w).all fun v => (m.meaning φ v).con⟩
  | .binary op φ ψ, w => Evidence.table op (m.meaning φ w) (m.meaning ψ w)

/-- What is wrong with a variable: the table of evidence for has no entry, or only the table of
evidence against has none. -/
def variableFault? (m : Model) (name : String) : Option EvalError :=
  if name ∉ m.pro then some (.noVariable name .pro)
  else if name ∉ m.con then some (.noVariable name .con)
  else none

/-- What is wrong with a node: it is too deep, or it is a variable with which something is wrong. -/
def nodeFault? (m : Model) (limit : Nat) : Nat × Formula → Option EvalError
  | (depth, .var name) => if limit < depth then some (.tooDeep limit) else m.variableFault? name
  | (depth, _) => if limit < depth then some (.tooDeep limit) else none

/-- The first thing that is wrong with a formula whose root has the given depth. -/
def faultFrom? (m : Model) (limit depth : Nat) (φ : Formula) : Option EvalError :=
  (φ.nodes depth).findSome? (m.nodeFault? limit)

/-- **The first thing that is wrong** with a formula. -/
def firstFault? (m : Model) (limit : Nat) (φ : Formula) : Option EvalError :=
  m.faultFrom? limit 1 φ

section Faults

variable {m : Model} {limit depth : Nat}

theorem faultFrom?_of_lt (h : limit < depth) (φ : Formula) :
    m.faultFrom? limit depth φ = some (.tooDeep limit) := by
  cases φ <;> simp [faultFrom?, Formula.nodes, nodeFault?, h]

theorem faultFrom?_var (h : depth ≤ limit) (name : String) :
    m.faultFrom? limit depth (.var name) = m.variableFault? name := by
  have hlt : ¬ limit < depth := Nat.not_lt.mpr h
  simp only [faultFrom?, Formula.nodes, List.findSome?_singleton, nodeFault?, if_neg hlt]

theorem faultFrom?_unary (h : depth ≤ limit) (op : Unary) (φ : Formula) :
    m.faultFrom? limit depth (.unary op φ) = m.faultFrom? limit (depth + 1) φ := by
  have hlt : ¬ limit < depth := Nat.not_lt.mpr h
  simp only [faultFrom?, Formula.nodes, List.findSome?_cons, nodeFault?, if_neg hlt]

theorem faultFrom?_binary (h : depth ≤ limit) (op : Binary) (φ ψ : Formula) :
    m.faultFrom? limit depth (.binary op φ ψ)
      = (m.faultFrom? limit (depth + 1) φ).or (m.faultFrom? limit (depth + 1) ψ) := by
  have hlt : ¬ limit < depth := Nat.not_lt.mpr h
  simp only [faultFrom?, Formula.nodes, List.findSome?_cons, nodeFault?, if_neg hlt,
    List.findSome?_append]

/-- Where the formula is not too deep, its first fault is that of its variables. -/
theorem faultFrom?_of_depth_le {φ : Formula} (h : φ.depth + depth ≤ limit + 1) :
    m.faultFrom? limit depth φ = φ.names.findSome? m.variableFault? := by
  induction φ generalizing depth with
  | var name =>
    rw [Formula.depth] at h
    rw [faultFrom?_var (by omega), Formula.names, List.findSome?_singleton]
  | unary op φ ih =>
    rw [Formula.depth] at h
    rw [faultFrom?_unary (by omega), ih (by omega), Formula.names]
  | binary op φ ψ ihφ ihψ =>
    rw [Formula.depth] at h
    rw [faultFrom?_binary (by omega), ihφ (by omega), ihψ (by omega), Formula.names,
      List.findSome?_append]

theorem le_of_faultFrom?_eq_none {φ : Formula} (h : m.faultFrom? limit depth φ = none) :
    depth ≤ limit := by
  by_contra hlt
  simp [faultFrom?_of_lt (Nat.not_le.mp hlt)] at h

theorem depth_le_of_faultFrom?_eq_none {φ : Formula} (h : m.faultFrom? limit depth φ = none) :
    φ.depth + depth ≤ limit + 1 := by
  have hroot := le_of_faultFrom?_eq_none h
  induction φ generalizing depth with
  | var name =>
    rw [Formula.depth]
    omega
  | unary op φ ih =>
    rw [faultFrom?_unary hroot] at h
    have hφ := ih h (le_of_faultFrom?_eq_none h)
    rw [Formula.depth]
    omega
  | binary op φ ψ ihφ ihψ =>
    rw [faultFrom?_binary hroot, Option.or_eq_none_iff] at h
    have hφ := ihφ h.1 (le_of_faultFrom?_eq_none h.1)
    have hψ := ihψ h.2 (le_of_faultFrom?_eq_none h.2)
    rw [Formula.depth]
    omega

/-- **Nothing is wrong with a formula** if it is not too deep and nothing is wrong with its
variables. -/
theorem faultFrom?_eq_none_iff {φ : Formula} :
    m.faultFrom? limit depth φ = none ↔
      φ.depth + depth ≤ limit + 1 ∧ φ.names.findSome? m.variableFault? = none := by
  constructor
  · intro h
    have hdepth := depth_le_of_faultFrom?_eq_none h
    exact ⟨hdepth, faultFrom?_of_depth_le hdepth ▸ h⟩
  · rintro ⟨hdepth, hnames⟩
    rw [faultFrom?_of_depth_le hdepth, hnames]

theorem firstFault?_of_depth_le {φ : Formula} (h : φ.depth ≤ limit) :
    m.firstFault? limit φ = φ.names.findSome? m.variableFault? :=
  faultFrom?_of_depth_le (Nat.succ_le_succ h)

/-- A fault of a variable depends on nothing but which tables have it. -/
theorem variableFault?_congr {m' : Model} {name : String}
    (h : ∀ s, name ∈ m.table s ↔ name ∈ m'.table s) :
    m.variableFault? name = m'.variableFault? name := by
  have hpro : name ∈ m.pro ↔ name ∈ m'.pro := h .pro
  have hcon : name ∈ m.con ↔ name ∈ m'.con := h .con
  simp only [variableFault?, hpro, hcon]

/-- Models with the same faults of variables have the same faults of formulas. -/
theorem faultFrom?_congr {m' : Model} {φ : Formula}
    (h : ∀ name ∈ φ.names, m.variableFault? name = m'.variableFault? name) :
    m.faultFrom? limit depth φ = m'.faultFrom? limit depth φ := by
  induction φ generalizing depth with
  | var name =>
    rcases Nat.lt_or_ge limit depth with hlt | hle
    · rw [faultFrom?_of_lt hlt, faultFrom?_of_lt hlt]
    · rw [faultFrom?_var hle, faultFrom?_var hle, h name (List.mem_singleton_self name)]
  | unary op φ ih =>
    rcases Nat.lt_or_ge limit depth with hlt | hle
    · rw [faultFrom?_of_lt hlt, faultFrom?_of_lt hlt]
    · rw [faultFrom?_unary hle, faultFrom?_unary hle, ih h]
  | binary op φ ψ ihφ ihψ =>
    rcases Nat.lt_or_ge limit depth with hlt | hle
    · rw [faultFrom?_of_lt hlt, faultFrom?_of_lt hlt]
    · rw [faultFrom?_binary hle, faultFrom?_binary hle,
        ihφ fun name hname => h name (List.mem_append_left _ hname),
        ihψ fun name hname => h name (List.mem_append_right _ hname)]

end Faults

/-- **Both tables have all variables** of a formula. -/
def Defines (m : Model) (φ : Formula) : Prop :=
  ∀ name ∈ φ.names, ∀ s, name ∈ m.table s

theorem Defines.variableFault?_eq_none {m : Model} {φ : Formula} (h : m.Defines φ) {name : String}
    (hname : name ∈ φ.names) : m.variableFault? name = none := by
  have hpro : name ∈ m.pro := h name hname .pro
  have hcon : name ∈ m.con := h name hname .con
  simp only [variableFault?, hpro, hcon, not_true_eq_false, if_false]

/-- A formula that is not too deep has no fault where both tables have its variables. -/
theorem Defines.firstFault?_eq_none {m : Model} {φ : Formula} (h : m.Defines φ) {limit : Nat}
    (hdepth : φ.depth ≤ limit) : m.firstFault? limit φ = none := by
  rw [firstFault?_of_depth_le hdepth, List.findSome?_eq_none_iff]
  exact fun name hname => h.variableFault?_eq_none hname

/-- A modality only asks which evidence there is at the worlds in sight, and not where, nor how
often. -/
theorem meaning_modal_congr {m m' : Model} {φ ψ : Formula} {v v' : Nat}
    (h : ∀ a, a ∈ (m.inSight v).map (m.meaning φ) ↔ a ∈ (m'.inSight v').map (m'.meaning ψ))
    (op : Modality) :
    m.meaning (.unary (.modal op) φ) v = m'.meaning (.unary (.modal op) ψ) v' := by
  have hany (P : Evidence → Bool) :
      (m.inSight v).any (P ∘ m.meaning φ) = (m'.inSight v').any (P ∘ m'.meaning ψ) := by
    rw [← List.any_map, ← List.any_map, Bool.eq_iff_iff, List.any_eq_true, List.any_eq_true]
    simp only [h]
  have hall (P : Evidence → Bool) :
      (m.inSight v).all (P ∘ m.meaning φ) = (m'.inSight v').all (P ∘ m'.meaning ψ) := by
    rw [← List.all_map, ← List.all_map, Bool.eq_iff_iff, List.all_eq_true, List.all_eq_true]
    simp only [h]
  cases op with
  | box => exact congrArg₂ Evidence.mk (hall Evidence.pro) (hany Evidence.con)
  | diamond => exact congrArg₂ Evidence.mk (hany Evidence.pro) (hall Evidence.con)

/-! ### From one world to all of them -/

variable {m : Model}

theorem WellShaped.mem_inSight_iff (hm : m.WellShaped) {v w : Nat} :
    w ∈ m.inSight v ↔ m.sees v w = true := by
  rw [inSight, List.mem_filter, List.mem_range]
  exact ⟨fun h => h.2, fun h => ⟨hm.lt_of_sees h, h⟩⟩

theorem WellShaped.evidenceAt_eq (hm : m.WellShaped) (name : String) {w : Nat}
    (hw : w < m.worlds) :
    m.evidenceAt name w = unlessFault (m.variableFault? name) (m.meaning (.var name) w) := by
  -- at this world an entry is missing exactly if the table does not have the variable at all
  have hpro := hm.value?_eq_none_iff .pro name hw
  have hcon := hm.value?_eq_none_iff .con name hw
  simp only [table] at hpro hcon
  simp only [evidenceAt, variableFault?, meaning, ← hpro, ← hcon]
  rcases m.value? .pro name w with _ | a
  · rfl
  · rcases m.value? .con name w with _ | b <;> rfl

/-- Going through worlds with the same fault at each of them. -/
theorem mapM_unlessFault {ε α : Type} {f : Nat → Except ε α} {fault : Option ε} {g : Nat → α}
    {ws : List Nat} (hws : ws ≠ []) (h : ∀ w ∈ ws, f w = unlessFault fault (g w)) :
    ws.mapM f = unlessFault fault (ws.map g) := by
  induction ws with
  | nil => exact absurd rfl hws
  | cons w ws ih =>
    rw [List.mapM_cons, h w (List.mem_cons_self ..)]
    rcases fault with _ | e
    · -- the induction hypothesis is about lists that are not empty
      rcases ws with _ | ⟨w', ws⟩
      · rfl
      · rw [ih (by simp) fun v hv => h v (List.mem_cons_of_mem _ hv)]
        rfl
    · rfl

/-- What a modality gathers at some worlds, when it has gathered something before. -/
theorem foldl_gather (op : Modality) (f : Nat → Evidence) (ws : List Nat) (a : Evidence) :
    (ws.map f).foldl (Evidence.gather op) a =
      match op with
      | .box => ⟨a.pro && ws.all fun w => (f w).pro, a.con || ws.any fun w => (f w).con⟩
      | .diamond => ⟨a.pro || ws.any fun w => (f w).pro, a.con && ws.all fun w => (f w).con⟩ := by
  induction ws generalizing a with
  | nil => cases op <;> simp
  | cons w ws ih =>
    rw [List.map_cons, List.foldl_cons, ih]
    cases op <;> simp [Evidence.gather, Evidence.meet, Evidence.join, Bool.and_assoc, Bool.or_assoc]

/-- No world in sight is lost in looking it up. -/
theorem WellShaped.filterMap_successors (hm : m.WellShaped) (f : Nat → Evidence) (v : Nat) :
    (m.successors v).filterMap (fun w => ((List.range m.worlds).map f)[w]?)
      = (m.inSight v).map f := by
  rw [hm.successors_eq, ← inSight]
  refine List.filterMap_eq_map_iff_forall_eq_some.mpr fun w hw => ?_
  have hlt : w < m.worlds := hm.lt_of_sees (hm.mem_inSight_iff.mp hw)
  rw [List.getElem?_map, List.getElem?_range hlt]
  rfl

theorem WellShaped.unary_map_range (hm : m.WellShaped) (op : Unary) (φ : Formula) :
    m.unary op ((List.range m.worlds).map (m.meaning φ))
      = (List.range m.worlds).map (m.meaning (.unary op φ)) := by
  rcases op with _ | op
  · exact List.map_map
  · refine List.map_congr_left fun v _ => ?_
    rw [hm.filterMap_successors, foldl_gather]
    cases op <;> simp only [meaning, Evidence.overNone, Bool.true_and, Bool.false_or]

theorem zipWith_map_range (op : Binary) (φ ψ : Formula) :
    List.zipWith (Evidence.binary op) ((List.range m.worlds).map (m.meaning φ))
        ((List.range m.worlds).map (m.meaning ψ))
      = (List.range m.worlds).map (m.meaning (.binary op φ ψ)) := by
  rw [List.zipWith_map, List.zipWith_self]
  exact List.map_congr_left fun v _ => Evidence.binary_eq_table op _ _

/-! ### All worlds at once -/

/-- **The evidence at all worlds is the meaning at each of them**, or the first fault. The levels
that are left and the depth of the root add up to the same number all the way down. -/
theorem WellShaped.evidence_eq (hm : m.WellShaped) (hpos : 0 < m.worlds) (limit : Nat)
    (room depth : Nat) (hroom : room + depth = limit + 1) (φ : Formula) :
    m.evidence limit room φ
      = unlessFault (m.faultFrom? limit depth φ) ((List.range m.worlds).map (m.meaning φ)) := by
  induction room generalizing depth φ with
  | zero =>
    -- where no level is left, the root is too deep already
    rw [faultFrom?_of_lt (by omega)]
    rfl
  | succ room ih =>
    have hdepth : depth ≤ limit := by omega
    have hnext : room + (depth + 1) = limit + 1 := by omega
    cases φ with
    | var name =>
      -- a model without worlds would not look the variable up, so it could not miss it
      have hworlds : List.range m.worlds ≠ [] := by
        rw [Ne, List.range_eq_nil]
        omega
      rw [faultFrom?_var hdepth, evidence]
      exact mapM_unlessFault hworlds fun w hw => hm.evidenceAt_eq name (List.mem_range.mp hw)
    | unary op φ =>
      rw [faultFrom?_unary hdepth, evidence, ih (depth + 1) hnext, map_unlessFault,
        hm.unary_map_range]
    | binary op φ ψ =>
      rw [faultFrom?_binary hdepth, evidence, ih (depth + 1) hnext φ, ih (depth + 1) hnext ψ,
        bind_unlessFault, zipWith_map_range]

/-- Evaluating at a world of the model. -/
theorem WellShaped.evaluate_of_lt (hm : m.WellShaped) (limit : Nat) (φ : Formula) {w : Nat}
    (hw : w < m.worlds) :
    m.evaluate limit φ w = unlessFault (m.firstFault? limit φ) (m.meaning φ w) := by
  rw [evaluate, if_pos hw, firstFault?,
    hm.evidence_eq (Nat.zero_lt_of_lt hw) limit limit 1 rfl]
  cases m.faultFrom? limit 1 φ with
  | none => simp [Except.bind, List.getElem?_range hw]
  | some e => rfl

/-- **Evaluating gives evidence** where there is nothing that could be wrong. -/
theorem WellShaped.evaluate_eq_ok (hm : m.WellShaped) {limit : Nat} {φ : Formula}
    (hφ : m.Defines φ) (hdepth : φ.depth ≤ limit) {w : Nat} (hw : w < m.worlds) :
    m.evaluate limit φ w = .ok (m.meaning φ w) := by
  rw [hm.evaluate_of_lt limit φ hw, hφ.firstFault?_eq_none hdepth, unlessFault_none]

theorem evaluate_of_le {limit : Nat} {φ : Formula} {w : Nat} (hw : m.worlds ≤ w) :
    m.evaluate limit φ w = .error (.noWorld w m.worlds) := by
  rw [evaluate, if_neg (Nat.not_lt.mpr hw)]

/-- **Evaluating gives the meaning or the first fault.** In a model that comes about, evaluating a
formula at a world gives the evidence for the formula there, where the modalities ask at the worlds
in sight, no more and no fewer. The only other outcomes are that there is no such world, whatever
the formula, and that something is wrong with the formula, whatever the world. -/
theorem evaluate_eq_meaning (hm : m.Reachable) :
    (∀ v w, w ∈ m.inSight v ↔ m.sees v w = true) ∧
    ∀ (limit : Nat) (φ : Formula) (w : Nat),
      m.evaluate limit φ w =
        if w < m.worlds then unlessFault (m.firstFault? limit φ) (m.meaning φ w)
        else .error (.noWorld w m.worlds) := by
  refine ⟨fun v w => hm.wellShaped.mem_inSight_iff, fun limit φ w => ?_⟩
  rw [evaluate]
  by_cases hw : w < m.worlds
  · rw [if_pos hw, if_pos hw, firstFault?,
      hm.wellShaped.evidence_eq (Nat.zero_lt_of_lt hw) limit limit 1 rfl]
    rcases m.faultFrom? limit 1 φ with _ | e
    · simp [Except.bind, List.getElem?_range hw]
    · rfl
  · rw [if_neg hw, if_neg hw]

/-- A draft of two worlds that see nothing, in which only the table of evidence for has `q`. -/
def halfKnown : Draft :=
  .ofCalls 2 [.values .pro "p" [0, 1], .values .con "p" [1, 0], .values .pro "q" [1, 1]]

/-- After an edit that brings the second world in sight of the first, what is possible at the first
world is what there is evidence for at the second. A variable that one table does not have is at
fault before the depth of what follows it. -/
theorem evaluate_eq_meaning_halfKnown :
    ∃ m n : Model, halfKnown.build = .ok m ∧ m.edit (.relation 0 1 1) = .ok n ∧
      n.evaluate 2 (.unary (.modal .diamond) (.var "p")) 0 = .ok ⟨true, false⟩ ∧
      n.evaluate 2 (.unary (.modal .diamond) (.var "p")) 1 = .ok ⟨false, true⟩ ∧
      n.evaluate 2 (.binary .conjunction (.var "q") (.unary .negation (.var "p"))) 0
        = .error (.noVariable "q" .con) := by
  have hbuild : halfKnown.build = .ok halfKnown.model := Draft.build_eq_ok_iff.mpr ⟨rfl, rfl⟩
  have hedit : halfKnown.model.edit (.relation 0 1 1)
      = .ok (halfKnown.model.edited (.relation 0 1 1)) := edit_eq_ok_iff.mpr ⟨rfl, rfl⟩
  obtain ⟨-, heval⟩ := evaluate_eq_meaning (.edited (.built hbuild) hedit)
  refine ⟨_, _, hbuild, hedit, ?_, ?_, ?_⟩
  · rw [heval]
    rfl
  · rw [heval]
    rfl
  · rw [heval]
    rfl

end Model

end Kripke

end TrustLogic
