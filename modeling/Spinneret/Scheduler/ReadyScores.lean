import Spinneret.Scheduler.ReuseValue

/-!
# Ready scores at the end of a lease

The end of a lease writes the ready score of its identity on the lease's own group. On
other groups it lowers scores that were pushed past the end: on the marked groups after
an exclusive lease, and on every group after a site reuse value was brought back.
-/

namespace Spinneret.Scheduler

open Spinneret.HotState Spinneret.Lib

set_option autoImplicit false

/-! ## Pulling scores back -/

/-- A score past the end of the lease and up to `bound` is lowered to `time`. -/
def pulled (endMs bound time score : Int) : Int :=
  if endMs < score ∧ score ≤ bound then min score time else score

theorem pulled_idem (endMs bound time score : Int) :
    pulled endMs bound time (pulled endMs bound time score) = pulled endMs bound time score := by
  unfold pulled
  split_ifs <;> omega

theorem pulled_either (endMs bound time score : Int) :
    pulled endMs bound time score = score ∨ pulled endMs bound time score = time := by
  unfold pulled
  split_ifs <;> omega

/-- What holds the identity back on group `g` after the end. -/
def returnTime (site : Site) (g i : Hkey) (idlevel endMs : Int) : Int :=
  max (max (hsCdRu (site.hs g i)).1 (hsCdRu (site.hs g i)).2) (max idlevel endMs)

section PullBack

variable (site : Site) (eg i : Hkey) (endMs bound idlevel : Int)

theorem pull_one_lookup (first g j : Hkey) :
    ((pullBack site [first] eg i endMs bound idlevel).rdy g).lookup j =
      if j = i ∧ g = first ∧ g ≠ eg then
        ((site.rdy g).lookup i).map (pulled endMs bound (returnTime site g i idlevel endMs))
      else (site.rdy g).lookup j := by
  simp only [pullBack, List.foldl_cons, List.foldl_nil]
  by_cases own : first = eg
  · rw [if_pos own, if_neg fun here => here.2.2 (here.2.1.trans own)]
  · rw [if_neg own]
    by_cases here : g = first
    · subst here
      cases present : (site.rdy g).lookup i with
      | none =>
        dsimp only
        split_ifs with asked
        · rw [asked.1, present]
          rfl
        · rfl
      | some score =>
        have same : ((site.rdy g).move (returnTime site g i idlevel endMs) i).lookup j =
            if j = i then some (returnTime site g i idlevel endMs)
            else (site.rdy g).lookup j := by
          rw [ZSet.lookup_move, present]
          rfl
        simp only [ne_eq, own, not_false_eq_true, and_true, Option.map_some]
        show (Site.rdy (if endMs < score ∧ score ≤ bound then
          if returnTime site g i idlevel endMs < score then
            site.setRdy g ((site.rdy g).move (returnTime site g i idlevel endMs) i)
          else site else site) g).lookup j = _
        unfold pulled
        split_ifs with range falls reached
        · rw [set_rdy_self, same, if_pos reached, min_eq_right falls.le]
        · rw [set_rdy_self, same, if_neg reached]
        · next asked => rw [asked, present, min_eq_left (not_lt.mp falls)]
        · rfl
        · next asked => rw [asked, present]
        · rfl
    · rw [if_neg fun asked => here asked.2.1]
      split
      · rfl
      · split_ifs
        · rw [set_rdy_of_ne here]
        · rfl
        · rfl

theorem pull_back_lookup (groups : List Hkey) (g : Hkey) :
    ((pullBack site groups eg i endMs bound idlevel).rdy g).lookup i =
      if g ∈ groups ∧ g ≠ eg then
        ((site.rdy g).lookup i).map (pulled endMs bound (returnTime site g i idlevel endMs))
      else (site.rdy g).lookup i := by
  induction groups generalizing site with
  | nil => simp [pullBack]
  | cons first rest ih =>
    have same : returnTime (pullBack site [first] eg i endMs bound idlevel) g i idlevel endMs =
        returnTime site g i idlevel endMs := by
      rw [returnTime, (pull_back_only_ready ..).hs]
      rfl
    have next := ih (pullBack site [first] eg i endMs bound idlevel)
    rw [same, pull_one_lookup] at next
    show ((pullBack (pullBack site [first] eg i endMs bound idlevel) rest eg i endMs bound
      idlevel).rdy g).lookup i = _
    rw [next]
    by_cases own : g = eg
    · simp [own]
    · by_cases here : g = first
      · subst here
        by_cases later : g ∈ rest
        · simp only [later, own, ne_eq, not_false_eq_true, and_self, if_true, Option.map_map,
            List.mem_cons, or_true, Function.comp_def, pulled_idem]
        · simp [later, own]
      · by_cases later : g ∈ rest
        · simp [here, own, later]
        · simp [here, own, later]

end PullBack

/-! ## The scores an end writes -/

section Ready

variable {site : Site} {layout : Layout} {lease : Lease} {reuse : ReuseEnd} {endMs : Int}
  {id next : Identity}

def endLevel (site : Site) (id next : Identity) : Int :=
  identityAvail site id.scd next.sru next.al next.xl id.acc

theorem ready_after_end_own :
    ((readyAfterEnd site layout lease reuse endMs id next).rdy lease.e).lookup lease.i =
      ((site.rdy lease.e).lookup lease.i).map fun _ =>
        returnTime site lease.e lease.i (endLevel site id next) endMs := by
  have scored (time : Int) : ((site.setRdy lease.e ((site.rdy lease.e).move time lease.i)).rdy
      lease.e).lookup lease.i = ((site.rdy lease.e).lookup lease.i).map fun _ => time := by
    rw [set_rdy_self, ZSet.lookup_move, if_pos rfl]
  have own (start : Site) (groups : List Hkey) (bound level : Int) :
      ((pullBack start groups lease.e lease.i endMs bound level).rdy lease.e).lookup lease.i =
        (start.rdy lease.e).lookup lease.i := by
    rw [pull_back_lookup, if_neg fun other => other.2 rfl]
  unfold readyAfterEnd
  dsimp only
  cases id.xg with
  | none =>
    dsimp only
    split_ifs
    · rw [own, scored]
      rfl
    · exact scored _
  | some mark =>
    dsimp only
    split_ifs
    · rw [own, own, scored]
      rfl
    · rw [own, scored]
      rfl
    · rw [own, scored]
      rfl
    · exact scored _

/-- On another group the score stays or becomes the time the identity returns. -/
theorem ready_after_end_either {g : Hkey} (other : g ≠ lease.e) :
    ((readyAfterEnd site layout lease reuse endMs id next).rdy g).lookup lease.i =
        (site.rdy g).lookup lease.i ∨
      ((readyAfterEnd site layout lease reuse endMs id next).rdy g).lookup lease.i =
        some (returnTime site g lease.i (endLevel site id next) endMs) := by
  set time := returnTime site g lease.i (endLevel site id next) endMs with returns
  -- Every pull starts from the health entries of `site`.
  have pull (start : Site) (groups : List Hkey) (bound : Int) (health : start.hs = site.hs)
      (before : (start.rdy g).lookup lease.i = (site.rdy g).lookup lease.i ∨
        (start.rdy g).lookup lease.i = some time) :
      ((pullBack start groups lease.e lease.i endMs bound (endLevel site id next)).rdy g).lookup
          lease.i = (site.rdy g).lookup lease.i ∨
        ((pullBack start groups lease.e lease.i endMs bound (endLevel site id next)).rdy g).lookup
          lease.i = some time := by
    have same : returnTime start g lease.i (endLevel site id next) endMs = time := by
      rw [returns, returnTime, health]
      rfl
    rw [pull_back_lookup, same]
    split_ifs with listed
    · rcases before with kept | moved
      · rw [kept]
        cases present : (site.rdy g).lookup lease.i with
        | none => exact .inl rfl
        | some score =>
          rcases pulled_either endMs bound time score with stays | falls
          · exact .inl (congrArg some stays)
          · exact .inr (congrArg some falls)
      · rw [moved]
        rcases pulled_either endMs bound time time with stays | falls
        · exact .inr (congrArg some stays)
        · exact .inr (congrArg some falls)
    · exact before
  have scored (time : Int) : ((site.setRdy lease.e ((site.rdy lease.e).move time lease.i)).rdy
      g).lookup lease.i = (site.rdy g).lookup lease.i := by
    rw [set_rdy_of_ne other]
  unfold readyAfterEnd
  dsimp only
  cases id.xg with
  | none =>
    dsimp only
    split_ifs
    · exact pull _ _ _ rfl (.inl (scored _))
    · exact .inl (scored _)
  | some mark =>
    dsimp only
    split_ifs
    · exact pull _ _ _ (pull_back_only_ready ..).hs (pull _ _ _ rfl (.inl (scored _)))
    · exact pull _ _ _ rfl (.inl (scored _))
    · exact pull _ _ _ rfl (.inl (scored _))
    · exact .inl (scored _)

end Ready

/-! ## The end of a lease -/

section Ends

variable {site : Site} {lease : Lease} {id : Identity} (layout : Layout) (lid : LeaseId)
  (state : LeaseState) (endMs now late : Int) (windows : Option (List Int))

/-- The ready scores are written last, from the state that stays otherwise. -/
theorem ls_end_ready (present : site.id lease.i = some id) :
    ∃ healthy : Site, healthy.rdy = site.rdy ∧
      healthy.hs = (lsEnd site layout lid lease state endMs now late windows).site.hs ∧
      healthy.acc = (lsEnd site layout lid lease state endMs now late windows).site.acc ∧
      (lsEnd site layout lid lease state endMs now late windows).site.rdy =
        (readyAfterEnd healthy layout lease (reuseEnd lease windows.isSome) endMs id
          (identityEnded id lease (reuseEnd lease windows.isSome) endMs)).rdy := by
  set refunded := refundAborted (endLeaseHash site lid lease state endMs now late) lease windows
    with refund
  have stays : refunded.id lease.i = some id := by
    rw [refund, refund_id]
    exact present
  set reuse := reuseEnd lease windows.isSome with anchor
  set counted := countEnd refunded lease reuse endMs id with count
  set healthy := endHealth counted layout lease reuse endMs now with health
  have ready : counted.rdy = site.rdy := by
    rw [count, refund, refund_writes]
    unfold countEnd
    dsimp only
    split <;> rfl
  have final : (lsEnd site layout lid lease state endMs now late windows).site =
      (endProxy (readyAfterEnd healthy layout lease reuse endMs id
        (identityEnded id lease reuse endMs)) lease now).site := by
    unfold lsEnd
    dsimp only
    rw [← refund]
    simp only [endIdentity, stays]
    rfl
  have only := @ready_after_end_only_ready healthy layout lease endMs reuse id
    (identityEnded id lease reuse endMs)
  refine ⟨healthy, ?_, ?_, ?_, ?_⟩
  · rw [health]
    unfold endHealth
    dsimp only
    split_ifs <;> exact ready
  · rw [final, end_proxy_writes]
    exact only.hs.symm
  · rw [final, end_proxy_writes]
    exact only.acc.symm
  · rw [final, end_proxy_writes]

/-- The ready scores are written last, from the identity as it stays. -/
theorem ls_end_scores (present : site.id lease.i = some id) :
    ∃ healthy : Site, healthy.rdy = site.rdy ∧
      (lsEnd site layout lid lease state endMs now late windows).site.rdy =
        (readyAfterEnd healthy layout lease (reuseEnd lease windows.isSome) endMs id
          (identityEnded id lease (reuseEnd lease windows.isSome) endMs)).rdy ∧
      ∀ g, returnTime healthy g lease.i (endLevel healthy id
          (identityEnded id lease (reuseEnd lease windows.isSome) endMs)) endMs =
        max (avail (lsEnd site layout lid lease state endMs now late windows).site g lease.i)
          endMs := by
  obtain ⟨healthy, ready, health, accounts, scores⟩ :=
    ls_end_ready layout lid state endMs now late windows present
  refine ⟨healthy, ready, scores, fun g => ?_⟩
  set final := (lsEnd site layout lid lease state endMs now late windows).site
  set next := identityEnded id lease (reuseEnd lease windows.isSome) endMs with ending
  have ended : final.id lease.i = some next := by
    rw [ls_end_id layout lid state endMs now late windows present, Function.update_self]
  have level : endLevel healthy id next =
      identityAvail final next.scd next.sru next.al next.xl next.acc := by
    unfold endLevel identityAvail accountCd
    rw [accounts]
    rfl
  rw [returnTime, level, health, avail, ended]
  exact (max_assoc _ _ _).symm

/-- On the lease's own group the score is the availability after the end, or the end. -/
theorem ls_end_own_score (present : site.id lease.i = some id) :
    ((lsEnd site layout lid lease state endMs now late windows).site.rdy lease.e).lookup lease.i =
      ((site.rdy lease.e).lookup lease.i).map fun _ =>
        max (avail (lsEnd site layout lid lease state endMs now late windows).site lease.e lease.i)
          endMs := by
  obtain ⟨healthy, ready, scores, times⟩ :=
    ls_end_scores layout lid state endMs now late windows present
  rw [scores, ready_after_end_own, ready, times]

end Ends

end Spinneret.Scheduler
