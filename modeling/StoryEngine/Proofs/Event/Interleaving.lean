import Mathlib.Data.List.Induction
import Mathlib.Data.List.Nodup
import StoryEngine.Proofs.Run.Recording

/-! # Executions that share a store

The events of several executions reach their store one by one, in any order that keeps the order
within each execution. Whatever order that is, the store has the events of each run as its
execution recorded them, and the runs in the order of their first events.
-/

namespace StoryEngine

/-- A merge of lists that keeps the order of each: its next member is the first one that is left
of one of them. -/
inductive Interleaves {α : Type} : List (List α) → List α → Prop where
  | done {lists : List (List α)} : (∀ l ∈ lists, l = []) → Interleaves lists []
  | next {front back : List (List α)} {x : α} {rest merged : List α} :
      Interleaves (front ++ rest :: back) merged →
      Interleaves (front ++ (x :: rest) :: back) (x :: merged)

namespace Interleaves

variable {α : Type} {lists : List (List α)} {merged : List α}

theorem perm_flatten (h : Interleaves lists merged) : merged.Perm lists.flatten := by
  induction h with
  | done hd => rw [List.flatten_eq_nil_iff.mpr hd]
  | @next front back x rest merged _ ih =>
    simp only [List.flatten_append, List.flatten_cons, List.cons_append] at ih ⊢
    exact (ih.cons x).trans List.perm_middle.symm

/-- Where all members of a kind come from one list, a merge keeps their order. -/
theorem filter_eq (h : Interleaves lists merged) {p : α → Bool}
    (alone : lists.Pairwise fun l l' => l.filter p = [] ∨ l'.filter p = []) :
    merged.filter p = lists.flatten.filter p := by
  induction h with
  | done hd => rw [List.flatten_eq_nil_iff.mpr hd]
  | @next front back x rest merged _ ih =>
    obtain ⟨hf, hxb, hfx⟩ := List.pairwise_append.mp alone
    obtain ⟨hx, hb⟩ := List.pairwise_cons.mp hxb
    have hr : (x :: rest).filter p = [] → rest.filter p = [] := by
      simp only [List.filter_eq_nil_iff]
      exact fun hn y hy => hn y (List.mem_cons_of_mem x hy)
    have hm : merged.filter p = (front ++ rest :: back).flatten.filter p := by
      refine ih (List.pairwise_append.mpr ⟨hf, List.pairwise_cons.mpr ⟨?_, hb⟩, ?_⟩)
      · exact fun l hl => (hx l hl).imp_left hr
      · intro l hl l' hl'
        rcases List.mem_cons.mp hl' with rfl | hl'
        · exact (hfx l hl _ List.mem_cons_self).imp_right hr
        · exact hfx l hl l' (List.mem_cons_of_mem _ hl')
    by_cases hp : p x = true
    · have hne : (x :: rest).filter p ≠ [] := by simp [hp]
      -- no list before the one that is next has members of the kind
      have hfront : front.flatten.filter p = [] := by
        rw [List.filter_flatten, List.flatten_eq_nil_iff, List.forall_mem_map]
        exact fun l hl => (hfx l hl _ List.mem_cons_self).resolve_right hne
      simp only [List.flatten_append, List.flatten_cons, List.filter_append, hfront] at hm ⊢
      simp [hp, hm]
    · simp only [List.flatten_append, List.flatten_cons, List.filter_append] at hm ⊢
      simp [hp, hm]

theorem cons_nil (h : Interleaves lists merged) : Interleaves ([] :: lists) merged := by
  induction h with
  | done hd => exact .done (List.forall_mem_cons.mpr ⟨rfl, hd⟩)
  | @next front back x rest merged _ ih => exact @next _ ([] :: front) _ _ _ _ ih

theorem flatten (lists : List (List α)) : Interleaves lists lists.flatten := by
  induction lists with
  | nil => exact .done nofun
  | cons l lists ih =>
    rw [List.flatten_cons]
    induction l with
    | nil => exact ih.cons_nil
    | cons x l ihl => exact @next _ [] _ _ _ _ ihl

end Interleaves

namespace EventStore

variable (store : EventStore) (event : Event) (events : List Event)

theorem appendAll_append (xs ys : List Event) :
    store.appendAll (xs ++ ys) = (store.appendAll xs).appendAll ys := List.foldl_append

theorem runs_append : (store.append event).runs =
    if event.run ∈ store.runs then store.runs else store.runs ++ [event.run] := by
  obtain ⟨entries⟩ := store
  rw [runs, append, runs]
  induction entries with
  | nil => rfl
  | cons entry rest ih =>
    obtain ⟨run, events⟩ := entry
    rw [appendTo]
    by_cases hr : run = event.run
    · simp [hr]
    · rw [if_neg hr, List.map_cons, ih, List.map_cons]
      by_cases hm : event.run ∈ rest.map Prod.fst
      · simp [hm]
      · simp [hm, Ne.symm hr]

theorem nodup_runs_append (h : store.runs.Nodup) : (store.append event).runs.Nodup := by
  rw [runs_append]
  split
  case isTrue => exact h
  case isFalse hn => exact List.nodup_append.mpr ⟨h, by simp, by grind⟩

theorem nodup_runs_appendAll (h : store.runs.Nodup) : (store.appendAll events).runs.Nodup := by
  induction events generalizing store with
  | nil => exact h
  | cons event rest ih => exact ih _ (store.nodup_runs_append event h)

/-- Of the events that arrive, each run gets its own in the order of their arrival. -/
theorem list_appendAll (run : RunId) : (store.appendAll events).list run =
    store.list run ++ events.filter fun event => event.run = run := by
  induction events generalizing store with
  | nil => exact (List.append_nil _).symm
  | cons event rest ih =>
    rw [appendAll, List.foldl_cons]
    refine (ih _).trans ?_
    rw [list_append]
    by_cases hr : event.run = run
    · simp [hr]
    · simp [hr, Ne.symm hr]

theorem runs_appendAll_empty :
    (empty.appendAll events).runs = (events.map Event.run).eraseDups := by
  induction events using List.reverseRecOn with
  | nil => rfl
  | append_singleton xs event ih =>
    have ha : empty.appendAll (xs ++ [event]) = (empty.appendAll xs).append event :=
      appendAll_append ..
    rw [ha, runs_append, ih, List.map_append, List.eraseDups_append, List.map_singleton,
      List.cons_removeAll]
    by_cases hm : event.run ∈ xs.map Event.run
    · simp [hm]
    · simp [hm, List.eraseDups_cons]

theorem runs_appendAll_of_block {run : RunId} (hr : ∀ event ∈ events, event.run = run)
    (hne : events ≠ []) (hn : run ∉ store.runs) :
    (store.appendAll events).runs = store.runs ++ [run] := by
  induction events using List.reverseRecOn with
  | nil => exact absurd rfl hne
  | append_singleton xs event ih =>
    have ha : store.appendAll (xs ++ [event]) = (store.appendAll xs).append event :=
      store.appendAll_append ..
    have he : event.run = run := hr event (List.mem_append_right _ List.mem_cons_self)
    rw [ha, runs_append, he]
    by_cases hx : xs = []
    · subst hx
      exact if_neg hn
    · rw [ih (fun e h => hr e (List.mem_append_left _ h)) hx]
      simp

/-- The store after an execution that handed its events to it when it was over. -/
def receive (execution : Execution) : EventStore := store.appendAll execution.events

def receiveAll (executions : List Execution) : EventStore := executions.foldl receive store

theorem receiveAll_eq (executions : List Execution) :
    store.receiveAll executions = store.appendAll (executions.map Execution.events).flatten := by
  induction executions generalizing store with
  | nil => rfl
  | cons execution rest ih =>
    rw [receiveAll, List.foldl_cons, List.map_cons, List.flatten_cons, appendAll_append]
    exact ih _

end EventStore

namespace Execution

def Performed (execution : Execution) : Prop :=
  ∃ (story : Story) (occasion : Occasion) (arguments : Arguments),
    execution = story.execute occasion arguments

variable {execution : Execution}

theorem Performed.run_of_mem (h : execution.Performed) {event : Event}
    (he : event ∈ execution.events) : event.run = execution.run := by
  obtain ⟨story, occasion, arguments, rfl⟩ := h
  obtain ⟨seq, hseq, rfl⟩ := List.mem_mapIdx.mp he
  rfl

theorem Performed.events_ne_nil (h : execution.Performed) : execution.events ≠ [] := by
  obtain ⟨story, occasion, arguments, rfl⟩ := h
  intro hn
  have hk := congrArg (List.map Event.kind) hn
  cases (story.kinds_execute arguments occasion).symm.trans hk

theorem Performed.map_seq (h : execution.Performed) :
    execution.events.map Event.seq = List.range execution.events.length := by
  obtain ⟨story, occasion, arguments, rfl⟩ := h
  exact occasion.map_seq_stamp _

theorem Performed.filter_events (h : execution.Performed) (run : RunId) :
    execution.events.filter (fun event => event.run = run) =
      if execution.run = run then execution.events else [] := by
  split
  case isTrue hr =>
    refine List.filter_eq_self.mpr fun event he => ?_
    exact decide_eq_true ((h.run_of_mem he).trans hr)
  case isFalse hr =>
    refine List.filter_eq_nil_iff.mpr fun event he => ?_
    simpa [h.run_of_mem he] using hr

end Execution

/-- What a store holds that has all events of the executions. -/
structure EventStore.Holds (store : EventStore) (executions : List Execution) : Prop where
  listed : ∀ execution ∈ executions, store.list execution.run = execution.events
  ascending : ∀ execution ∈ executions,
    (store.list execution.run).map Event.seq = List.range execution.events.length
  foreign : ∀ run, run ∉ executions.map Execution.run → store.list run = []
  runs : store.runs.Perm (executions.map Execution.run)

section Family

variable {executions : List Execution} (performed : ∀ e ∈ executions, e.Performed)
  (distinct : (executions.map Execution.run).Nodup)

include performed

theorem filter_flatten_eq_nil {run : RunId} (hn : run ∉ executions.map Execution.run) :
    (executions.map Execution.events).flatten.filter (fun event => event.run = run) = [] := by
  rw [List.filter_flatten, List.flatten_eq_nil_iff, List.map_map, List.forall_mem_map]
  intro e he
  refine ((performed e he).filter_events run).trans (if_neg ?_)
  rintro rfl
  exact hn (List.mem_map_of_mem he)

include distinct

theorem filter_flatten_eq {execution : Execution} (he : execution ∈ executions) :
    (executions.map Execution.events).flatten.filter (fun event => event.run = execution.run) =
      execution.events := by
  obtain ⟨front, back, rfl⟩ := List.append_of_mem he
  rw [List.map_append, List.map_cons, List.nodup_middle, List.nodup_cons, List.mem_append,
    not_or] at distinct
  have hf := filter_flatten_eq_nil (fun e h => performed e (List.mem_append_left _ h))
    distinct.1.1
  have hb := filter_flatten_eq_nil
    (fun e h => performed e (List.mem_append_right _ (List.mem_cons_of_mem _ h))) distinct.1.2
  rw [List.map_append, List.map_cons, List.flatten_append, List.flatten_cons, List.filter_append,
    List.filter_append, hf, hb, (performed execution he).filter_events, if_pos rfl]
  simp

theorem alone_of_distinct (run : RunId) :
    (executions.map Execution.events).Pairwise fun xs ys =>
      xs.filter (fun event => event.run = run) = [] ∨
        ys.filter (fun event => event.run = run) = [] := by
  rw [List.pairwise_map]
  refine (List.pairwise_map.mp distinct).imp_of_mem fun {e e'} he he' hne => ?_
  rw [(performed e he).filter_events, (performed e' he').filter_events]
  by_cases hr : e.run = run
  · exact .inr (if_neg fun hr' => hne (hr.trans hr'.symm))
  · exact .inl (if_neg hr)

theorem EventStore.runs_receiveAll (store : EventStore)
    (fresh : ∀ run ∈ executions.map Execution.run, run ∉ store.runs) :
    (store.receiveAll executions).runs = store.runs ++ executions.map Execution.run := by
  induction executions generalizing store with
  | nil => exact (List.append_nil _).symm
  | cons execution rest ih =>
    have he := performed execution List.mem_cons_self
    have hr : (store.receive execution).runs = store.runs ++ [execution.run] :=
      store.runs_appendAll_of_block _ (fun _ => he.run_of_mem) he.events_ne_nil
        (fresh _ List.mem_cons_self)
    obtain ⟨hn, hd⟩ := List.nodup_cons.mp distinct
    rw [receiveAll, List.foldl_cons]
    refine (ih (fun e h => performed e (List.mem_cons_of_mem _ h)) hd _ ?_).trans ?_
    · intro run hm
      rw [hr, List.mem_append, List.mem_singleton, not_or]
      refine ⟨fresh run (List.mem_cons_of_mem _ hm), ?_⟩
      rintro rfl
      exact hn hm
    · rw [hr, List.append_assoc]
      rfl

theorem EventStore.holds_of_interleaves {arrivals : List Event}
    (h : Interleaves (executions.map Execution.events) arrivals) :
    (empty.appendAll arrivals).Holds executions := by
  have hlist (run : RunId) : (empty.appendAll arrivals).list run =
      (executions.map Execution.events).flatten.filter fun event => event.run = run := by
    rw [list_appendAll, h.filter_eq (alone_of_distinct performed distinct run)]
    rfl
  have hown : ∀ e ∈ executions, (empty.appendAll arrivals).list e.run = e.events :=
    fun e he => (hlist e.run).trans (filter_flatten_eq performed distinct he)
  constructor
  case listed => exact hown
  case ascending =>
    intro e he
    rw [hown e he]
    exact (performed e he).map_seq
  case foreign => exact fun run hn => (hlist run).trans (filter_flatten_eq_nil performed hn)
  case runs =>
    have hd := empty.nodup_runs_appendAll arrivals List.nodup_nil
    refine (List.perm_ext_iff_of_nodup hd distinct).mpr fun run => ?_
    rw [runs_appendAll_empty, List.mem_eraseDups, List.mem_map, List.mem_map]
    constructor
    · rintro ⟨event, hm, rfl⟩
      obtain ⟨events, hl, he⟩ := List.mem_flatten.mp (h.perm_flatten.mem_iff.mp hm)
      obtain ⟨e, hx, rfl⟩ := List.mem_map.mp hl
      exact ⟨e, hx, ((performed e hx).run_of_mem he).symm⟩
    · rintro ⟨e, hx, rfl⟩
      obtain ⟨event, he⟩ := List.exists_mem_of_ne_nil _ (performed e hx).events_ne_nil
      refine ⟨event, h.perm_flatten.mem_iff.mpr ?_, (performed e hx).run_of_mem he⟩
      exact List.mem_flatten.mpr ⟨_, List.mem_map_of_mem hx, he⟩

/-- A store that executions share has the events of each of them, however they arrive, and the runs
in the order of their first events. Where the executions do not overlap, that is their order. -/
theorem EventStore.sortsOut_appendAll :
    (∀ arrivals, Interleaves (executions.map Execution.events) arrivals →
      (empty.appendAll arrivals).Holds executions ∧
        (empty.appendAll arrivals).runs = (arrivals.map Event.run).eraseDups) ∧
    (empty.receiveAll executions).Holds executions ∧
      (empty.receiveAll executions).runs = executions.map Execution.run := by
  refine ⟨fun arrivals h => ?_, ?_, ?_⟩
  · exact ⟨holds_of_interleaves performed distinct h, runs_appendAll_empty arrivals⟩
  · rw [receiveAll_eq]
    exact holds_of_interleaves performed distinct (.flatten _)
  · exact runs_receiveAll performed distinct empty nofun

end Family

namespace Demo

def rivals : List Execution :=
  [smallShop.execute occasion order, smallShop.execute ⟨⟨2⟩, occasion.clock⟩ order]

/-- The events of the two executions where the second one starts first and is then held up. -/
def arrivals : List Event :=
  let events := rivals.map Execution.events
  (events.getD 1 []).take 1 ++ (events.getD 0 [] ++ (events.getD 1 []).drop 1)

theorem interleaves_arrivals : Interleaves (rivals.map Execution.events) arrivals := by
  have held (x : Event) (xs ys : List Event) : Interleaves [xs, x :: ys] (x :: (xs ++ ys)) := by
    have hm : Interleaves [xs, ys] (xs ++ ys) := by simpa using Interleaves.flatten [xs, ys]
    exact @Interleaves.next _ [xs] [] x ys _ hm
  exact held _ _ _

theorem sortsOut_rivals : (∀ e ∈ rivals, e.Performed) ∧ (rivals.map Execution.run).Nodup ∧
    (EventStore.empty.appendAll arrivals).Holds rivals ∧
    (EventStore.empty.appendAll arrivals).runs = [⟨2⟩, ⟨1⟩] ∧
    (EventStore.empty.receiveAll rivals).runs = [⟨1⟩, ⟨2⟩] := by
  have hp : ∀ e ∈ rivals, e.Performed := by
    intro e he
    rcases List.mem_pair.mp he with rfl | rfl
    · exact ⟨_, _, _, rfl⟩
    · exact ⟨_, _, _, rfl⟩
  have hd : (rivals.map Execution.run).Nodup := by decide
  obtain ⟨hall, -, hr⟩ := EventStore.sortsOut_appendAll hp hd
  obtain ⟨hh, hruns⟩ := hall arrivals interleaves_arrivals
  have hmap : arrivals.map Event.run = ⟨2⟩ :: List.replicate 16 ⟨1⟩ ++ List.replicate 15 ⟨2⟩ := rfl
  refine ⟨hp, hd, hh, ?_, hr⟩
  rw [hruns, hmap]
  decide

end Demo

end StoryEngine
