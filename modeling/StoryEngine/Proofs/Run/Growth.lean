import StoryEngine.Proofs.Contract.Outputs
import StoryEngine.Proofs.Run.Stack

/-! # Growing contexts

A walk only adds variables to its context, behind those that are there. Each variable that it adds
was put before the contracts of the stories that were active at that moment.
-/

namespace StoryEngine

def Variable.pair (v : Variable) : String × Value := (v.name, v.value)

namespace Context

variable {earlier later : Context} {name : String} {value : Value}

theorem get?_mono (h : earlier.entries <+: later.entries)
    (hv : earlier.get? name = some value) : later.get? name = some value := by
  obtain ⟨added, ha⟩ := h
  obtain ⟨v, hf, rfl⟩ := Option.map_eq_some_iff.mp hv
  have hf' : earlier.entries.find? (·.name == name) = some v := hf
  rw [get?, find?, ← ha, List.find?_append, hf']
  rfl

theorem entries_of_extend {outputs : Outputs} {identity : StepIdentity}
    (h : earlier.extend outputs identity = .ok later) :
    ∃ added, later.entries = earlier.entries ++ added ∧
      added.map Variable.pair = outputs.pairs := by
  unfold extend at h
  split at h
  · obtain rfl := Except.ok.inj h
    exact ⟨_, rfl, by simp [Variable.pair, Function.comp_def]⟩
  · cases h

end Context

theorem checkOutputs_nil (active : List Origin) : checkOutputs active [] = .ok () :=
  checkOutputs_eq_ok_iff.mpr (Or.inr ⟨nofun, fun _ _ _ _ hne => absurd rfl hne⟩)

namespace Walker

variable {walker next : Walker} {instruction : Instruction}

/-- A visit adds outputs that pass the contracts of the active stories, or it adds nothing. -/
theorem entries_of_visit (h : (walker.visit instruction).2 = .on next) :
    ∃ added, next.context.entries = walker.context.entries ++ added ∧
      checkOutputs walker.active (added.map Variable.pair) = .ok () := by
  have hnone (he : next.context = walker.context) :
      ∃ added, next.context.entries = walker.context.entries ++ added ∧
        checkOutputs walker.active (added.map Variable.pair) = .ok () :=
    ⟨[], by rw [he, List.append_nil], checkOutputs_nil _⟩
  cases hs : walker.skipping with
  | some level =>
    obtain ⟨next', hv, hc, -⟩ := visit_of_skipping hs instruction
    obtain rfl : next' = next := by simpa [hv] using h
    exact hnone hc
  | none =>
    obtain ⟨active, skipping, context⟩ := walker
    obtain rfl : skipping = none := hs
    obtain ⟨owner, action, origin⟩ := instruction
    cases action with
    | enter story title injected => exact hnone (by rw [enter_on h])
    | exit story =>
      cases h
      exact hnone rfl
    | step name step =>
      obtain ⟨outcome, -, hp⟩ := passes_of_perform h
      cases hp with
      | nothing => exact hnone rfl
      | skip => exact hnone rfl
      | success hc he =>
        obtain ⟨added, ha, hm⟩ := Context.entries_of_extend he
        exact ⟨added, ha, hm ▸ hc⟩

theorem exists_advance_walk (walker : Walker) (is : List Instruction) :
    ∃ xs last, xs <+: is ∧ walker.advance xs = some last ∧
      (walk walker is).context = last.context := by
  induction is generalizing walker with
  | nil => exact ⟨[], walker, List.prefix_rfl, rfl, rfl⟩
  | cons i is ih =>
    cases hv : walker.visit i with
    | mk events move =>
      cases move with
      | halt verdict =>
        exact ⟨[], walker, List.nil_prefix, rfl, by rw [walk_cons_of_halt hv]⟩
      | on next =>
        obtain ⟨xs, last, hx, ha, hc⟩ := ih next
        refine ⟨i :: xs, last, (List.prefix_cons_inj i).mpr hx, ?_, ?_⟩
        · rw [advance, hv]
          exact ha
        · rw [walk_cons_of_on hv]
          exact hc

end Walker

namespace Trace

variable {trace : Trace} {context : Context} {j k : Nat} {earlier later : Walker}

theorem exists_walkerAt_of_le (hk : trace.walkerAt context k = some later) (h : j ≤ k) :
    ∃ earlier, trace.walkerAt context j = some earlier := by
  have ht : trace.instructions.take j ++ trace.between j k = trace.instructions.take k :=
    between_append (Nat.zero_le j) h
  rw [walkerAt, ← ht, Walker.advance_append, Option.bind_eq_some_iff] at hk
  obtain ⟨earlier, hj, -⟩ := hk
  exact ⟨earlier, hj⟩

theorem exists_walkerAt_walk (trace : Trace) (context : Context) :
    ∃ k last, k ≤ trace.size ∧ trace.walkerAt context k = some last ∧
      (walk (.start trace.root context) trace.instructions).context = last.context := by
  obtain ⟨xs, last, hx, ha, hc⟩ :=
    (Walker.start trace.root context).exists_advance_walk trace.instructions
  refine ⟨xs.length, last, hx.length_le, ?_, hc⟩
  rw [walkerAt, ← List.prefix_iff_eq_take.mp hx]
  exact ha

/-- What a walk adds between two of its states passed the contracts of the stories that were
active when it was added. -/
theorem Nested.exists_added (h : trace.Nested) (hj : trace.walkerAt context j = some earlier)
    (hk : trace.walkerAt context k = some later) (hjk : j ≤ k) (hs : k ≤ trace.size) :
    ∃ added, later.context.entries = earlier.context.entries ++ added ∧
      ∀ v ∈ added, ∃ m outputs, j ≤ m ∧ m < k ∧ v.pair ∈ outputs ∧
        checkOutputs (trace.activeBefore m) outputs = .ok () := by
  -- the stack of the state before a visit holds the stories that are open there
  induction hjk generalizing later with
  | refl =>
    obtain rfl := Option.some.inj (hj.symm.trans hk)
    exact ⟨[], (List.append_nil _).symm, nofun⟩
  | @step k hjk ih =>
    have hi : trace.instructions[k]? = some trace.instructions[k] := List.getElem?_eq_getElem hs
    obtain ⟨walker, hw, hv⟩ := (walkerAt_succ hi).mp hk
    obtain ⟨before, hb, hbefore⟩ := ih hw (Nat.le_of_succ_le hs)
    obtain ⟨added, ha, hc⟩ := Walker.entries_of_visit hv
    rw [h.active_eq hw (Nat.le_of_succ_le hs)] at hc
    refine ⟨before ++ added, by rw [ha, hb, List.append_assoc], fun v hv => ?_⟩
    rcases List.mem_append.mp hv with hv | hv
    · obtain ⟨m, outputs, hjm, hmk, hm⟩ := hbefore v hv
      exact ⟨m, outputs, hjm, Nat.lt_succ_of_lt hmk, hm⟩
    · exact ⟨k, _, hjk, Nat.lt_succ_self k, List.mem_map_of_mem hv, hc⟩

theorem Nested.prefix_of_le (h : trace.Nested) (hj : trace.walkerAt context j = some earlier)
    (hk : trace.walkerAt context k = some later) (hjk : j ≤ k) (hs : k ≤ trace.size) :
    earlier.context.entries <+: later.context.entries := by
  obtain ⟨added, ha, -⟩ := h.exists_added hj hk hjk hs
  exact ⟨added, ha.symm⟩

end Trace

end StoryEngine
