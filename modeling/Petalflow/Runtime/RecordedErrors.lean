import Petalflow.Runtime.Parallel.ForkJoin
import Petalflow.Runtime.Sequential.Paths

open petalflow.core petalflow.graph petalflow.nodes machine List

namespace petalflow.runtime

/-- Both executors record every failure exactly once in the envelope of a run
that returns without an error: the sequential one in the order of the failures,
the parallel one together with the failed merges. -/
theorem failures_recorded_once (g : Graph) (opts : RunOptions) (env : Envelope) (hkeeps : KeepsErrors g)
    (henv : env.errors = []) :
    (∀ ctx fuel done final, executeGraphSequential fuel g.toBasicGraph ctx env opts = some done →
      done.ret = .returned final none →
      ∃ env', final = some env' ∧ env'.errors.map failureOf = failures done.log) ∧
    (1 < opts.concurrency → ∀ s final, (executeGraphParallel g.toBasicGraph opts env).Reachable s →
      s.coordinator = .returned (.returned final none) →
      ∃ env', final = some env' ∧
        (env'.errors.map failureOf).Perm (failures s.log ++ failedMerges g.toBasicGraph s.calls)) := by
  refine ⟨?_, ?_⟩
  · intro ctx fuel done final hrun hret
    exact executeGraphSequential_errors hkeeps henv hrun hret
  grind [executeGraphParallel_errors]

namespace branches

def newFailing (id : String) : Node := newFuncNode id fun _ env => .failed "boom" env

def badMerge : MergeStrategy := newFuncMergeStrategy "bad" (some fun _ _ => .failed "bad")

def failingNodes : List Node :=
  [newFailing "e", newNoopNode "a", newNoopNode "b", newMergeNode "m" { strategy := some badMerge }]

def failing : Graph :=
  (Graph.build? failingNodes [⟨"e", "a"⟩, ⟨"e", "b"⟩, ⟨"a", "m"⟩, ⟨"b", "m"⟩] "e").get (by decide)

theorem failing_keepsErrors : KeepsErrors failing := by
  intro id node hnode
  have hmem := Graph.build?_nodes (by decide) hnode
  simp only [failingNodes, mem_cons, not_mem_nil, or_false] at hmem
  rcases hmem with rfl | rfl | rfl | rfl
  · refine ⟨nofun, ?_, nofun⟩
    rintro t env message received ⟨⟩
    rfl
  · exact newNoopNode_keepsErrors "a"
  · exact newNoopNode_keepsErrors "b"
  · refine newMergeNode_keepsErrors "m" _ ?_
    rintro strategy ⟨⟩ t inputs merged hinputs ⟨⟩

def continues : RunOptions := { opts with continueOnError := true }

def boom : Failure := { nodeID := "e", kind := .noop, message := "boom" }

def reportsBoom (done : Finished) : Bool :=
  match done.ret with
  | .returned _ none => decide (failures done.log = [boom])
  | _ => false

theorem exists_of_reportsBoom {done : Finished} (hreports : reportsBoom done = true) :
    ∃ final, done.ret = .returned final none ∧ failures done.log = [boom] := by
  unfold reportsBoom at hreports
  grind

end branches

/-- With a failing entry and a failing merge, the sequential run returns the
error of the entry and the parallel run the errors of both. -/
theorem failing_recorded_once :
    (∃ done env', executeGraphSequential 10 branches.failing.toBasicGraph (fun _ => none) {} branches.continues =
        some done ∧ done.ret = .returned (some env') none ∧ env'.errors.map failureOf = [branches.boom]) ∧
    ∃ s env', (executeGraphParallel branches.failing.toBasicGraph branches.continues {}).Reachable s ∧
      s.coordinator = .returned (.returned (some env') none) ∧
      (env'.errors.map NodeError.nodeID).Perm ["e", "m"] := by
  obtain ⟨hsequential, hparallel⟩ := failures_recorded_once branches.failing branches.continues {}
    branches.failing_keepsErrors rfl
  constructor
  · obtain ⟨done, hrun, hreports⟩ := (Option.any_eq_true _ _).mp (show
      (executeGraphSequential 10 branches.failing (fun _ => none) {} branches.continues).any
        branches.reportsBoom = true by decide +kernel)
    obtain ⟨final, hret, hfailures⟩ := branches.exists_of_reportsBoom hreports
    grind
  · obtain ⟨s, hreach, htest⟩ := Machine.exists_reachable_of_exec
      (m := executeGraphParallel branches.failing branches.continues {}) branches.runOnce
      (fun s => s.completed && decide ((failures s.log ++ failedMerges branches.failing s.calls).map
        Failure.nodeID = ["e", "m"])) (by decide +kernel)
    rw [Bool.and_eq_true, decide_eq_true_eq] at htest
    obtain ⟨final, hdone⟩ := State.exists_of_completed htest.1
    obtain ⟨env', hfinal, herrors⟩ := hparallel (by decide) s final hreach hdone
    have hids := herrors.map Failure.nodeID
    rw [map_map, htest.2] at hids
    exact ⟨s, env', hreach, hfinal ▸ hdone, hids⟩

end petalflow.runtime
