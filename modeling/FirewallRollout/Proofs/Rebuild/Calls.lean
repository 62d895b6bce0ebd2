import FirewallRollout.Proofs.Rebuild.Effect

/-!
# The history of calls

The calls of one task and the latest call for one server, and what a call that begins or returns
changes about them.
-/
namespace FirewallRollout.Rebuild

deriving instance DecidableEq for Call

namespace State

/-- The calls of a task. -/
def callsOf (s : State) (id : String) : List Call := s.calls.filter (·.plan.task == id)

/-- The call for a server that began last. -/
def lastCall? (s : State) (server : String) : Option Call :=
  (s.calls.filter (·.plan.server == server)).getLast?

theorem mem_callsOf {s : State} {id : String} {c : Call} :
    c ∈ s.callsOf id ↔ c ∈ s.calls ∧ c.plan.task = id := by
  simp [callsOf]

theorem mem_of_lastCall? {s : State} {server : String} {c : Call}
    (h : s.lastCall? server = some c) : c ∈ s.calls ∧ c.plan.server = server := by
  simpa using List.mem_filter.mp (List.mem_of_getLast? h)

theorem callsOf_congr {s s' : State} (h : s'.calls = s.calls) (id : String) :
    s'.callsOf id = s.callsOf id := by
  rw [callsOf, h, callsOf]

theorem lastCall?_congr {s s' : State} (h : s'.calls = s.calls) (server : String) :
    s'.lastCall? server = s.lastCall? server := by
  rw [lastCall?, h, lastCall?]

@[simp] theorem callsOf_withWorker (s : State) (id : String) (change : Worker → Worker)
    (id' : String) : (s.withWorker id change).callsOf id' = s.callsOf id' := rfl

theorem callsOf_withResult (s : State) (id : String) (result : Executor.Result) (id' : String) :
    (s.withResult id result).callsOf id' =
      if id' = id then (s.callsOf id).map fun c => { c with result := some result }
      else s.callsOf id' := by
  unfold callsOf withResult
  rw [List.filter_map]
  by_cases hid : id' = id
  · subst hid
    rw [if_pos rfl]
    have hcomp : ((fun c : Call => c.plan.task == id') ∘ fun c : Call =>
        if c.plan.task == id' then { c with result := some result } else c) =
        fun c : Call => c.plan.task == id' := by
      funext c
      simp only [Function.comp]
      split <;> rfl
    rw [hcomp]
    apply List.map_congr_left
    intro c hc
    rw [if_pos (List.mem_filter.mp hc).2]
  · rw [if_neg hid]
    have hcomp : ((fun c : Call => c.plan.task == id') ∘ fun c : Call =>
        if c.plan.task == id then { c with result := some result } else c) =
        fun c : Call => c.plan.task == id' := by
      funext c
      simp only [Function.comp]
      split <;> rfl
    rw [hcomp]
    conv_rhs => rw [← List.map_id (List.filter _ _)]
    apply List.map_congr_left
    intro c hc
    have hcid : c.plan.task = id' := by simpa using (List.mem_filter.mp hc).2
    rw [if_neg (by simpa [hcid] using hid)]
    rfl

theorem callsOf_append {s s' : State} {c : Call} (h : s'.calls = s.calls ++ [c]) (id : String) :
    s'.callsOf id = if id = c.plan.task then s.callsOf id ++ [c] else s.callsOf id := by
  rw [callsOf, h, List.filter_append]
  by_cases hid : id = c.plan.task
  · simp [hid, callsOf]
  · simp [hid, callsOf, Ne.symm hid]

theorem lastCall?_append {s s' : State} {c : Call} (h : s'.calls = s.calls ++ [c])
    (server : String) :
    s'.lastCall? server = if server = c.plan.server then some c else s.lastCall? server := by
  rw [lastCall?, h, List.filter_append]
  by_cases hserver : server = c.plan.server
  · simp [hserver]
  · simp [hserver, lastCall?, Ne.symm hserver]

theorem lastCall?_withResult (s : State) (id : String) (result : Executor.Result)
    (server : String) :
    (s.withResult id result).lastCall? server = (s.lastCall? server).map fun c =>
      if c.plan.task == id then { c with result := some result } else c := by
  have hcomp : ((fun c : Call => c.plan.server == server) ∘ fun c : Call =>
      if c.plan.task == id then { c with result := some result } else c) =
      fun c : Call => c.plan.server == server := by
    funext c
    simp only [Function.comp]
    split <;> rfl
  rw [lastCall?, withResult, List.filter_map, hcomp, List.getLast?_map]
  rfl

end State
end FirewallRollout.Rebuild
