import StoryEngine.Story.Trace

/-! # Matching markers

Which exit of a trace matches which enter, and which enters are still open before an instruction,
read off the positions of the markers. The open positions are also computed as a stack, and an
exit that matches an enter finds it on top of that stack.
-/

namespace StoryEngine

namespace Instruction

variable (instruction : Instruction)

def entered? : Option Origin :=
  match instruction.action with
  | .enter story _ _ => some story
  | _ => none

def exited? : Option Origin :=
  match instruction.action with
  | .exit story => some story
  | _ => none

/-- The effect on a stack of whatever stands for the open stories. -/
def shift {α : Type} (mark : Origin → α) (stack : List α) : List α :=
  match instruction.action with
  | .step _ _ => stack
  | .enter story _ _ => mark story :: stack
  | .exit _ => stack.tail

variable {instruction}

theorem exited?_of_isStep (h : instruction.isStep) : instruction.exited? = none := by
  obtain ⟨owner, action, origin⟩ := instruction
  cases action with
  | step => rfl
  | enter => rfl
  | exit => cases h

theorem mem_shift {α : Type} {mark : Origin → α} {x : α} {stack : List α}
    (h : x ∈ instruction.shift mark stack) :
    x ∈ stack ∨ ∃ story, instruction.entered? = some story ∧ x = mark story := by
  obtain ⟨owner, action, origin⟩ := instruction
  cases action with
  | step => exact Or.inl h
  | enter story =>
    rcases List.mem_cons.mp h with rfl | h
    · exact Or.inr ⟨story, rfl, rfl⟩
    · exact Or.inl h
  | exit => exact Or.inl (List.mem_of_mem_tail h)

end Instruction

namespace Trace

variable (trace : Trace)

def enteredAt (k : Nat) : Option Origin := trace.instructions[k]?.bind Instruction.entered?

def exitedAt (k : Nat) : Option Origin := trace.instructions[k]?.bind Instruction.exited?

def between (i j : Nat) : List Instruction := (trace.instructions.take j).drop i

/-- The exit at `j` matches the enter at `i`: the instructions between them are balanced. -/
def Matches (i j : Nat) : Prop :=
  i < j ∧ (trace.enteredAt i).isSome ∧ (trace.exitedAt j).isSome ∧
    balancedFrom [] (trace.between (i + 1) j) = true

instance (i j : Nat) : Decidable (trace.Matches i j) := by unfold Matches; infer_instance

/-- The enters before `k` that no exit before `k` matches, in order. -/
def openBefore (k : Nat) : List Nat :=
  (List.range k).filter fun i => (trace.enteredAt i).isSome ∧ ∀ j < k, ¬ trace.Matches i j

/-- The stories that are open before `k`, the outermost first and without the root. -/
def storiesBefore (k : Nat) : List Origin := (trace.openBefore k).filterMap trace.enteredAt

def innermost (k : Nat) : Origin := (trace.storiesBefore k).getLast?.getD trace.root

/-- The active stories before `k`, the innermost first and the root last. -/
def activeBefore (k : Nat) : List Origin := (trace.storiesBefore k).reverse ++ [trace.root]

variable {trace}

theorem enteredAt_eq_some {k : Nat} {story : Origin} :
    trace.enteredAt k = some story ↔ ∃ owner title injected origin,
      trace.instructions[k]? = some ⟨owner, .enter story title injected, origin⟩ := by
  rw [enteredAt, Option.bind_eq_some_iff]
  constructor
  · rintro ⟨⟨owner, action, origin⟩, hi, hs⟩
    cases action with
    | enter entered title injected =>
      obtain rfl : entered = story := Option.some.inj hs
      exact ⟨owner, title, injected, origin, hi⟩
    | step => cases hs
    | exit => cases hs
  · rintro ⟨owner, title, injected, origin, hi⟩
    exact ⟨_, hi, rfl⟩

theorem exitedAt_eq_some {k : Nat} {story : Origin} :
    trace.exitedAt k = some story ↔
      ∃ owner origin, trace.instructions[k]? = some ⟨owner, .exit story, origin⟩ := by
  rw [exitedAt, Option.bind_eq_some_iff]
  constructor
  · rintro ⟨⟨owner, action, origin⟩, hi, hs⟩
    cases action with
    | exit exited =>
      obtain rfl : exited = story := Option.some.inj hs
      exact ⟨owner, origin, hi⟩
    | step => cases hs
    | enter => cases hs
  · rintro ⟨owner, origin, hi⟩
    exact ⟨_, hi, rfl⟩

theorem Matches.exists_exit {i j : Nat} (h : trace.Matches i j) :
    ∃ story owner origin, trace.instructions[j]? = some ⟨owner, .exit story, origin⟩ := by
  obtain ⟨story, hs⟩ := Option.isSome_iff_exists.mp h.2.2.1
  exact ⟨story, exitedAt_eq_some.mp hs⟩

theorem mem_openBefore_iff {i k : Nat} : i ∈ trace.openBefore k ↔
    i < k ∧ (trace.enteredAt i).isSome ∧ ∀ j < k, ¬ trace.Matches i j := by
  rw [openBefore, List.mem_filter, List.mem_range, decide_eq_true_iff]

theorem openBefore_succ (k : Nat) :
    trace.openBefore (k + 1) = (trace.openBefore k).filter (fun i => ¬ trace.Matches i k) ++
      if (trace.enteredAt k).isSome then [k] else [] := by
  have hall (i : Nat) : (∀ j < k + 1, ¬ trace.Matches i j) ↔
      ¬ trace.Matches i k ∧ ∀ j < k, ¬ trace.Matches i j := by
    constructor
    · exact fun h => ⟨h k (Nat.lt_succ_self k), fun j hj => h j (Nat.lt_succ_of_lt hj)⟩
    · rintro ⟨hk, h⟩ j hj
      rcases Nat.lt_succ_iff_lt_or_eq.mp hj with hj | rfl
      · exact h j hj
      · exact hk
  have hself : ∀ j < k + 1, ¬ trace.Matches k j := fun j hj hm => absurd hm.1 (by omega)
  rw [openBefore, List.range_succ, List.filter_append, openBefore, List.filter_filter]
  congr 1
  · refine List.filter_congr fun i _ => ?_
    simp only [hall, ← Bool.decide_and, decide_eq_decide]
    exact and_left_comm
  · simp only [List.filter_cons, List.filter_nil, decide_eq_true_eq, and_iff_left hself]

theorem between_append {i j k : Nat} (hij : i ≤ j) (hjk : j ≤ k) :
    trace.between i j ++ trace.between j k = trace.between i k := by
  have hj : trace.instructions.take j = (trace.instructions.take k).take j := by
    rw [List.take_take, Nat.min_eq_left hjk]
  have hd : (trace.instructions.take k).drop j =
      ((trace.instructions.take k).drop i).drop (j - i) := by
    rw [List.drop_drop, Nat.add_sub_cancel' hij]
  unfold between
  rw [hj, List.drop_take, hd, List.take_append_drop]

theorem between_self (k : Nat) : trace.between k k = [] := by simp [between]

theorem between_succ {k : Nat} {i : Instruction} (h : trace.instructions[k]? = some i) :
    trace.between k (k + 1) = [i] := by
  rw [between, List.drop_take, Nat.add_sub_cancel_left, List.take_one, List.head?_drop, h]
  rfl

theorem balancedFrom_append {xs : List Origin} {is : List Instruction}
    (h : balancedFrom xs is = true) (ys : List Origin) (rest : List Instruction) :
    balancedFrom (xs ++ ys) (is ++ rest) = balancedFrom ys rest := by
  induction is generalizing xs with
  | nil =>
    obtain rfl : xs = [] := by simpa [balancedFrom] using h
    rfl
  | cons i is ih =>
    obtain ⟨owner, action, origin⟩ := i
    cases action with
    | step => exact ih (by simpa [balancedFrom] using h)
    | enter story =>
      have hs : balancedFrom (story :: xs) is = true := by simpa [balancedFrom] using h
      exact ih hs
    | exit story =>
      cases xs with
      | nil => simp [balancedFrom] at h
      | cons top below =>
        simp only [balancedFrom, Bool.and_eq_true] at h
        simp only [List.cons_append, balancedFrom, h.1, ih h.2, Bool.true_and]

theorem balancedFrom_closed {is : List Instruction} (h : balancedFrom [] is = true)
    (ys : List Origin) (rest : List Instruction) :
    balancedFrom ys (is ++ rest) = balancedFrom ys rest := balancedFrom_append h ys rest

/-- A block with the markers of one story around it may follow balanced instructions. -/
theorem balancedFrom_block {u : Nat} {story : Origin} {before inner : List Instruction}
    (hb : balancedFrom [] before = true) (he : trace.enteredAt u = some story)
    (hi : balancedFrom [] inner = true) (owner : Owner) (origin : Origin) :
    balancedFrom [] (before ++ (trace.between u (u + 1) ++
      (inner ++ [⟨owner, .exit story, origin⟩]))) = true := by
  obtain ⟨_, _, _, _, hu⟩ := enteredAt_eq_some.mp he
  rw [between_succ hu, balancedFrom_closed hb]
  simp [balancedFrom, balancedFrom_closed hi, Origin.same]

end Trace

/-- The positions of the open markers after a list of instructions, the innermost first. -/
def marks : Nat → List Nat → List Instruction → List Nat
  | _, stack, [] => stack
  | n, stack, i :: rest => marks (n + 1) (i.shift (fun _ => n) stack) rest

theorem marks_append (n : Nat) (stack : List Nat) (xs ys : List Instruction) :
    marks n stack (xs ++ ys) = marks (n + xs.length) (marks n stack xs) ys := by
  induction xs generalizing n stack with
  | nil => rfl
  | cons i xs ih =>
    simp only [List.cons_append, marks, ih, List.length_cons]
    congr 1
    omega

theorem marks_of_balancedFrom {xs : List Origin} {is : List Instruction}
    (h : Trace.balancedFrom xs is = true) (closed : List Nat) (hl : closed.length = xs.length)
    (n : Nat) (stack : List Nat) : marks n (closed ++ stack) is = stack := by
  induction is generalizing xs closed n with
  | nil =>
    obtain rfl : xs = [] := by simpa [Trace.balancedFrom] using h
    obtain rfl : closed = [] := by simpa using hl
    rfl
  | cons i is ih =>
    obtain ⟨owner, action, origin⟩ := i
    cases action with
    | step => exact ih (by simpa [Trace.balancedFrom] using h) closed hl _
    | enter story =>
      have hs : Trace.balancedFrom (story :: xs) is = true := by
        simpa [Trace.balancedFrom] using h
      exact ih hs (n :: closed) (by simpa using hl) _
    | exit story =>
      cases xs with
      | nil => simp [Trace.balancedFrom] at h
      | cons top below =>
        obtain ⟨m, closed, rfl⟩ := List.exists_cons_of_length_eq_add_one hl
        simp only [Trace.balancedFrom, Bool.and_eq_true] at h
        exact ih h.2 closed (by simpa using hl) _

namespace Trace

def marksBefore (trace : Trace) (k : Nat) : List Nat := marks 0 [] (trace.instructions.take k)

variable {trace : Trace}

theorem marksBefore_succ {k : Nat} {i : Instruction} (h : trace.instructions[k]? = some i) :
    trace.marksBefore (k + 1) = i.shift (fun _ => k) (trace.marksBefore k) := by
  have hk : (trace.instructions.take k).length = k := by
    obtain ⟨hlt, -⟩ := List.getElem?_eq_some_iff.mp h
    rw [List.length_take, Nat.min_eq_left (Nat.le_of_lt hlt)]
  rw [marksBefore, List.take_add_one, h, marks_append, hk, Nat.zero_add]
  rfl

theorem marksBefore_succ_of_none {k : Nat} (h : trace.instructions[k]? = none) :
    trace.marksBefore (k + 1) = trace.marksBefore k := by
  rw [marksBefore, List.take_add_one, h, Option.toList_none, List.append_nil]
  rfl

theorem of_mem_marksBefore {k m : Nat} (h : m ∈ trace.marksBefore k) :
    m < k ∧ (trace.enteredAt m).isSome := by
  induction k with
  | zero => cases h
  | succ k ih =>
    cases hi : trace.instructions[k]? with
    | none =>
      rw [marksBefore_succ_of_none hi] at h
      exact ⟨Nat.lt_succ_of_lt (ih h).1, (ih h).2⟩
    | some i =>
      rw [marksBefore_succ hi] at h
      rcases Instruction.mem_shift h with h | ⟨story, he, rfl⟩
      · exact ⟨Nat.lt_succ_of_lt (ih h).1, (ih h).2⟩
      · exact ⟨Nat.lt_succ_self _, by simp [enteredAt, hi, he]⟩

theorem marksBefore_of_balanced {i j : Nat} (hij : i ≤ j)
    (h : balancedFrom [] (trace.between i j) = true) :
    trace.marksBefore j = trace.marksBefore i := by
  have hs : trace.instructions.take j = trace.instructions.take i ++ trace.between i j :=
    (between_append (Nat.zero_le i) hij).symm
  rw [marksBefore, hs, marks_append]
  exact marks_of_balancedFrom h [] rfl _ _

theorem marksBefore_succ_of_entered {k : Nat} (h : (trace.enteredAt k).isSome) :
    trace.marksBefore (k + 1) = k :: trace.marksBefore k := by
  obtain ⟨story, hs⟩ := Option.isSome_iff_exists.mp h
  obtain ⟨_, _, _, _, hi⟩ := enteredAt_eq_some.mp hs
  rw [marksBefore_succ hi]
  rfl

theorem Matches.marksBefore {i j : Nat} (h : trace.Matches i j) :
    trace.marksBefore j = i :: trace.marksBefore i := by
  obtain ⟨hij, hi, -, hb⟩ := h
  rw [marksBefore_of_balanced hij hb, marksBefore_succ_of_entered hi]

theorem Matches.enter_unique {i i' j : Nat} (h : trace.Matches i j) (h' : trace.Matches i' j) :
    i = i' :=
  (List.cons.inj (h.marksBefore.symm.trans h'.marksBefore)).1

end Trace

end StoryEngine
