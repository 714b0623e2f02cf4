import Mathlib.Data.Prod.Lex
import Spinneret.Lib.Escalation
import Spinneret.Worker.Observe

/-!
# The checkpoint test is the order of stream ids

The observe script compares stream ids as numerals. On canonical ids that is the
order by milliseconds and then by sequence, so a checkpoint is a high-water mark.
-/

namespace Spinneret.Worker

open Spinneret.HotState Spinneret.Lib

set_option autoImplicit false

def streamKey (sid : StreamId) : ℕ ×ₗ ℕ := toLex (sid.ms, sid.seq)

theorem stream_key_injective : Function.Injective streamKey := by
  intro left right same
  obtain ⟨ms, seq⟩ := Prod.mk.inj (toLex.injective same)
  cases left
  cases right
  simp_all

instance : LinearOrder StreamId := LinearOrder.lift' streamKey stream_key_injective

theorem stream_id_le {left right : StreamId} :
    left ≤ right ↔ left.ms < right.ms ∨ (left.ms = right.ms ∧ left.seq ≤ right.seq) :=
  Prod.Lex.toLex_le_toLex

/-- The script skips exactly the ids up to the checkpoint. -/
theorem duplicate_iff (prev cur : StreamId) : duplicate prev cur = true ↔ cur ≤ prev := by
  unfold duplicate
  rw [stream_id_le]
  by_cases same : prev.ms = cur.ms
  · rw [if_pos (congrArg numeral same)]
    simp only [Bool.or_eq_true, numeral_lt_iff, decide_eq_true_eq, numeral_injective.eq_iff]
    omega
  · rw [if_neg fun equal => same (numeral_injective equal)]
    simp only [numeral_lt_iff]
    omega

def Observed.isDup : Observed → Bool
  | .dup => true
  | .checkpointed | .applied _ => false

/-- The checkpoint decides whether a call has effects. -/
theorem observe_dup_iff (shard : Nat) (sid : StreamId) (full : Option ObserveArgs) (site : Site) :
    (observe shard sid full site).2.isDup = true ↔
      ∃ prev, site.ckpt shard = some prev ∧ sid ≤ prev := by
  unfold observe
  cases mark : site.ckpt shard with
  | none => cases full <;> simp [Observed.isDup]
  | some prev =>
    simp only [Option.any_some, Option.some.injEq, exists_eq_left', ← duplicate_iff]
    split_ifs with seen
    · simp [Observed.isDup, seen]
    · cases full <;> simp [Observed.isDup, seen]

theorem observe_dup_unchanged {shard : Nat} {sid : StreamId} {full : Option ObserveArgs}
    {site : Site} (dup : (observe shard sid full site).2.isDup = true) :
    (observe shard sid full site).1 = site := by
  unfold observe at dup ⊢
  split_ifs with seen
  · rfl
  · rw [if_neg seen] at dup
    cases full <;> simp [Observed.isDup] at dup

/-! ## Effects leave the checkpoint alone -/

structure KeepsMarks (site next : Site) : Prop where
  ckpt : next.ckpt = site.ckpt
  cnt : next.cnt = site.cnt

theorem KeepsMarks.refl (site : Site) : KeepsMarks site site := ⟨rfl, rfl⟩

theorem KeepsMarks.trans {site middle next : Site} (first : KeepsMarks site middle)
    (second : KeepsMarks middle next) : KeepsMarks site next :=
  ⟨second.ckpt.trans first.ckpt, second.cnt.trans first.cnt⟩

section Frame

variable (args : ObserveArgs) (site : Site) (i : Hkey)

theorem quota_report_marks : KeepsMarks site (quotaReport args site i) := by
  unfold quotaReport
  dsimp only
  split_ifs <;> exact ⟨rfl, rfl⟩

theorem lease_report_marks : KeepsMarks site (leaseReport args site).1 := by
  unfold leaseReport
  split
  · exact .refl site
  · dsimp only
    split
    · split_ifs
      · exact ⟨(quota_report_marks args _ _).ckpt, (quota_report_marks args _ _).cnt⟩
      · exact ⟨rfl, rfl⟩
    · exact ⟨rfl, rfl⟩

theorem window_report_marks : KeepsMarks site (windowReport args site) := by
  unfold windowReport
  dsimp only
  split <;> exact ⟨rfl, rfl⟩

theorem cross_attribute_marks : KeepsMarks site (crossAttribute args site).1 := by
  unfold crossAttribute
  split
  · split_ifs <;> exact ⟨rfl, rfl⟩
  · exact .refl site

theorem endpoint_report_marks (blame : Blame) :
    KeepsMarks site (endpointReport args site i blame).site := by
  unfold endpointReport
  dsimp only
  split_ifs <;> exact ⟨rfl, rfl⟩

theorem global_report_marks (id : Identity) (blame : Blame) :
    KeepsMarks site (globalReport args site i id blame).site := by
  unfold globalReport
  dsimp only
  split <;> exact ⟨rfl, rfl⟩

theorem proxy_report_marks (blame : Blame) : KeepsMarks site (proxyReport args site blame).1 := by
  unfold proxyReport
  split
  · exact .refl site
  · dsimp only
    split <;> exact ⟨rfl, rfl⟩

theorem counter_report_ckpt (acc : Option Hkey) :
    (counterReport args i acc site).1.ckpt = site.ckpt := by
  have kept : ∀ (state : Site × List (CounterKey × Int) × List Int) request,
      (countRequest args i acc state request).1.ckpt = state.1.ckpt := by
    intro state request
    unfold countRequest
    split
    · rfl
    · split_ifs
      · dsimp only
        split <;> rfl
      · rfl
  exact foldl_frame (fun state : Site × List (CounterKey × Int) × List Int => state.1.ckpt) _
    kept _ _

/-- The counters of a call that counts nothing, and of one that counts: on the site as the
other effects left it, for the identity and the account of the reply. -/
inductive Counts (args : ObserveArgs) (site : Site) (result : Site × ObserveReply) : Prop where
  | silent (kept : KeepsMarks site result.1)
      (why : result.2.idState = none ∨ result.2.suppressed = true ∨ args.late = true)
      (counts : result.2.counts = args.counters.map fun _ => 0)
  | counted {marked : Site} {i : Hkey} {acc : Option Hkey}
      (after : result.1 = (counterReport args i acc marked).1)
      (counts : result.2.counts = (counterReport args i acc marked).2)
      (kept : KeepsMarks site marked) (ident : args.ident = some i)
      (known : result.2.idState.isSome = true) (account : result.2.account = acc)
      (heard : result.2.suppressed = false) (timely : args.late = false)

theorem observe_full_counts : Counts args site (observeFull args site) := by
  have probed : KeepsMarks site (probeReport args (windowReport args (leaseReport args site).1)
      (leaseReport args site).2) :=
    ⟨((lease_report_marks args site).trans (window_report_marks args _)).ckpt,
      ((lease_report_marks args site).trans (window_report_marks args _)).cnt⟩
  have crossed := probed.trans (cross_attribute_marks args _)
  unfold observeFull
  dsimp only
  split
  · next i identity ident found =>
    split
    · next quiet => exact .silent crossed (.inr quiet) rfl
    · next counted =>
      obtain ⟨heard, timely⟩ := not_or.mp counted
      refine .counted rfl rfl (crossed.trans ((endpoint_report_marks args _ i _).trans
        ((global_report_marks args _ i identity _).trans (proxy_report_marks args _ _)))) ident
        ?_ ?_ (Bool.eq_false_iff.mpr heard) (Bool.eq_false_iff.mpr timely)
      · show (Option.map _ _).isSome = true
        rw [found]
        rfl
      · show Option.bind _ _ = _
        rw [found]
        rfl
  · next unknown =>
    refine .silent crossed (.inl ?_) rfl
    show Option.map _ _ = none
    rw [Option.map_eq_none_iff, Option.eq_none_iff_forall_ne_some]
    intro identity found
    obtain ⟨i, ident, -⟩ := Option.bind_eq_some_iff.mp found
    exact unknown i identity ident found

theorem observe_full_ckpt : (observeFull args site).1.ckpt = site.ckpt := by
  cases observe_full_counts args site with
  | silent kept => exact kept.ckpt
  | counted after counts kept => rw [after, counter_report_ckpt, kept.ckpt]

end Frame

theorem observe_ckpt {shard : Nat} {sid : StreamId} {full : Option ObserveArgs} {site : Site}
    (fresh : (observe shard sid full site).2.isDup = false) :
    (observe shard sid full site).1.ckpt = Function.update site.ckpt shard (some sid) := by
  unfold observe at fresh ⊢
  split_ifs with seen
  · rw [if_pos seen] at fresh
    cases fresh
  · cases full with
    | none => rfl
    | some args => exact observe_full_ckpt args _

theorem ckpt_update_same {shard s : Nat} {sites : Nat → Site} {site : Site}
    (same : site.ckpt shard = (sites s).ckpt shard) (other : Nat) :
    (Function.update sites s site other).ckpt shard = (sites other).ckpt shard := by
  by_cases equal : other = s
  · rw [equal, Function.update_self, same]
  · rw [Function.update_of_ne equal]

end Spinneret.Worker
