import Spinneret.Action.Severity
import Spinneret.HotState.SyncIdentities
import Spinneret.Worker.Observe
import Spinneret.Lib.Machine

/-!
# Two stores for one lifecycle

The lifecycle of an identity is held twice. Enforced actions change Redis first
and reach the row later, through batches that the state writer may order and
repeat at will; transitions change the row first and reach Redis later or never;
a synchronization copies a row that may be out of date by the time it is written.
Three comparisons of change times keep the two apart from old news: in `set`, in
the sync script and in the row update. The changes themselves are the history
here, with the time each took effect.
-/

namespace Spinneret.Runs

open Spinneret.HotState Spinneret.Lib Spinneret.Lib.Machine Spinneret.Action

set_option autoImplicit false

/-! ## What the scripts do to one lifecycle -/

section Scripts

variable {iid : String} {i : Hkey}

theorem sync_group_id (args : SyncArgs) (j : Hkey) (level jitter : Int) (eligible : Bool)
    (site : Site) (eg : Hkey) : (syncGroup args j level jitter eligible site eg).id = site.id := by
  have reset : (syncHealth args j site eg).id = site.id := by
    unfold syncHealth
    split
    · rfl
    · split_ifs <;> rfl
  unfold syncGroup
  dsimp only
  split_ifs <;> exact reset

theorem sync_identity_id (args : SyncArgs) (site : Site) (row : IdentityRow) :
    (syncIdentity args site row).id =
      Function.update site.id row.i (some (syncedIdentity args site row)) := by
  have groups := fun level jitter eligible => foldl_frame Site.id
    (syncGroup args row.i level jitter eligible)
    (fun site eg => sync_group_id args row.i level jitter eligible site eg)
  have joins : ∀ (state : Site) (acc : Option Hkey), (joinAccount state row.i acc).id = state.id := by
    intro state acc
    cases acc <;> rfl
  have leaves : ∀ (state : Site) (acc : Option Hkey), (leaveAccount state row.i acc).id = state.id := by
    intro state acc
    cases acc <;> rfl
  unfold syncIdentity
  dsimp only
  rw [groups, groups]
  have stored : ∀ state : Site, state.id = Function.update site.id row.i
        (some (syncedIdentity args site row)) →
      (if args.resetHealth then (joinAccount state row.i row.acc).markDirty (.global row.i)
        else joinAccount state row.i row.acc).id =
        Function.update site.id row.i (some (syncedIdentity args site row)) := by
    intro state hash
    split_ifs <;> exact (joins _ _).trans hash
  refine stored _ ?_
  split_ifs
  · rfl
  · exact leaves _ _

end Scripts

end Spinneret.Runs
