import Spinneret.Runs.BreakerSteps
import Spinneret.Scheduler.ReadyScores

/-!
# The end of an exclusive lease

While an exclusive lease holds an identity, acquires in other groups push it away and
mark it. When the lease ends as the last one of the identity, the marked groups of its
client get back what nothing else keeps from them.
-/

namespace Spinneret.Runs

open Spinneret.HotState Spinneret.Lib Spinneret.Scheduler

set_option autoImplicit false

/-! ## The end -/

section Ends

variable {site : Site} {lid : LeaseId} {i eg g : Hkey} {pushers own : List Hkey} {lease : Lease}
  {layout : Layout}

end Ends

/-! ## A returned and a kept push -/

def exclusiveLid : LeaseId := { lead := "a", shard := 0 }

def sharedSync : SyncArgs :=
  { now := 900, merge := false, mergeAccounts := false, resetHealth := false
    resetFailuresArg := false, cold := false, baselines := fun _ => none, accounts := []
    records := [.sync { i := 7, iid := "idt_7", st := .active, ty := "", tv := "", pv := ""
                        acc := none, rg := "", bu := 0, qu := 0, act := 0, px := none
                        profile := ⟨[1, 2], []⟩, jitter := 0, sct := 0 }] }

end Spinneret.Runs
