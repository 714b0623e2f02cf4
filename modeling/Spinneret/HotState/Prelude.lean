import Mathlib.Algebra.Order.Round
import Spinneret.HotState.Model

/-!
# Shared script helpers

The `sp_*` helpers of the common Lua prelude that read or write more than one
number: the packed health entry, score decay, the availability rule and the
sliding quota estimate.
-/

namespace Spinneret.HotState

open Spinneret.Lib

set_option autoImplicit false

/-- `%.2f` on the value the scripts store as a score. -/
def twoDecimals (value : ℚ) : ℚ := (round (value * 100) : ℚ) / 100

/-- `%.4f` on the scores a reply carries. -/
def fourDecimals (value : ℚ) : ℚ := (round (value * 10000) : ℚ) / 10000

/-- `sp_hs_unpack` on a canonical entry; a missing one has the baseline score. -/
def hsUnpack (entry : Option Health) (baseline : ℚ) (now : Int) : Health :=
  entry.getD { score := baseline, sts := now }

def hsPack (health : Health) : Health := { health with score := twoDecimals health.score }

def hsSet (site : Site) (eg i : Hkey) (health : Health) : Site :=
  site.setHs eg i (some (hsPack health))

/-- `sp_hs_cd_ru`: the cooldown and reuse ends of an entry. -/
def hsCdRu : Option Health → Int × Int
  | none => (0, 0)
  | some health => (health.cd, health.ru)

/-- `sp_decay`; `exp` stands for the `math.exp` of the Lua host. -/
def decay (exp : ℚ → ℚ) (score : ℚ) (sts now : Int) (baseline : ℚ) (tau : Int) : ℚ :=
  if tau ≤ 0 ∨ now - sts ≤ 0 then score
  else baseline + (score - baseline) * exp (-((now - sts : Int) : ℚ) / (tau : ℚ))

/-- `sp_ewma` with the weight clamped to the unit interval. -/
def ewma (score value alpha : ℚ) : ℚ :=
  let weight := if alpha < 0 then 0 else if 1 < alpha then 1 else alpha
  weight * value + (1 - weight) * score

/-- The account cooldown of an identity, 0 without an account or its hash. -/
def accountCd (site : Site) : Option Hkey → Int
  | none => 0
  | some a => ((site.acc a).map Account.cd).getD 0

/-- The identity side of the availability rule for the hash values in hand. -/
def identityAvail (site : Site) (scd sru al xl : Int) (acc : Option Hkey) : Int :=
  let cooled := max scd sru
  let leased := if 0 < al then max cooled xl else cooled
  match acc with
  | none => leased
  | some _ => max leased (accountCd site acc)

/-- `sp_avail`: the earliest time identity `i` may be leased on group `eg`. -/
def avail (site : Site) (eg i : Hkey) : Int :=
  let cdRu := hsCdRu (site.hs eg i)
  let identitySide := match site.id i with
    | none => 0
    | some id => identityAvail site id.scd id.sru id.al id.xl id.acc
  max (max cdRu.1 cdRu.2) identitySide

@[simp] theorem set_rdy_self (site : Site) (eg : Hkey) (value : ZSet Hkey) :
    (site.setRdy eg value).rdy eg = value := Function.update_self ..

theorem set_rdy_of_ne {eg other : Hkey} (apart : other ≠ eg) (site : Site) (value : ZSet Hkey) :
    (site.setRdy eg value).rdy other = site.rdy other := Function.update_of_ne apart ..

/-- The states differ in the ready queues at most. -/
def OnlyReady (before after : Site) : Prop := after = { before with rdy := after.rdy }

namespace OnlyReady

theorem refl (site : Site) : OnlyReady site site := rfl

theorem trans {first second third : Site} (left : OnlyReady first second)
    (right : OnlyReady second third) : OnlyReady first third := by
  unfold OnlyReady at *
  rw [right, left]

theorem setRdy (site : Site) (eg : Hkey) (value : ZSet Hkey) :
    OnlyReady site (site.setRdy eg value) := rfl

theorem foldl {Item : Type*} {f : Site → Item → Site}
    (each : ∀ site item, OnlyReady site (f site item)) (items : List Item) (site : Site) :
    OnlyReady site (items.foldl f site) := by
  induction items generalizing site with
  | nil => exact refl site
  | cons item rest ih => exact (each site item).trans (ih _)

theorem id {before after : Site} (only : OnlyReady before after) : after.id = before.id := by
  rw [only]

theorem hs {before after : Site} (only : OnlyReady before after) : after.hs = before.hs := by
  rw [only]

theorem acc {before after : Site} (only : OnlyReady before after) : after.acc = before.acc := by
  rw [only]

end OnlyReady

/-- `sp_push_all`: raise the ready score of `i` on every group it is ready in. -/
def pushAll (site : Site) (egs : List Hkey) (i : Hkey) (score : Int) : Site :=
  egs.foldl (fun site eg => site.setRdy eg ((site.rdy eg).raise score i)) site

theorem push_all_only_ready (site : Site) (egs : List Hkey) (i : Hkey) (score : Int) :
    OnlyReady site (pushAll site egs i score) :=
  OnlyReady.foldl (fun site eg => OnlyReady.setRdy site eg _) egs site

/-- `sp_rescore`: move the ready score of `i` on `eg` to its availability. -/
def rescore (site : Site) (eg i : Hkey) : Site :=
  site.setRdy eg ((site.rdy eg).move (avail site eg i) i)

theorem rescore_only_ready (site : Site) (eg i : Hkey) : OnlyReady site (rescore site eg i) :=
  OnlyReady.setRdy site eg _

/-- `sp_quota_est`: the previous window weighted by its unelapsed share, plus
the current count. -/
def quotaEst (p n start w now : Int) : ℚ :=
  if w ≤ 0 then (n : ℚ)
  else
    let frac : ℚ := max 0 (min 1 (((now - start : Int) : ℚ) / (w : ℚ)))
    max (n : ℚ) ((p : ℚ) * (1 - frac) + (n : ℚ))

/-- One more request in the window of `now`; a window that has just passed
becomes the previous one. Acquire and observe count requests alike. -/
def quotaCounted (now w : Int) (cell : Option QuotaCell) : QuotaCell :=
  let idx := now / w
  let read := cell.getD { c := -1, n := 0, p := 0 }
  if read.c = idx then { read with n := read.n + 1 }
  else { c := idx, n := 1, p := if read.c = idx - 1 then read.n else 0 }

end Spinneret.HotState
