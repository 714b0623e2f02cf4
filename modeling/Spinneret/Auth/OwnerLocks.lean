import Spinneret.Auth.UsersAdmin
import Spinneret.Lib.Machine

/-!
# Concurrent changes of role bindings

Role bindings are created and deleted in transactions at the isolation level read committed. The
table keeps every version of a row that was ever inserted, under ids that are never given twice,
and which of them are committed and not deleted. A deletion of a tenant-wide owner binding first
selects the owner bindings of the tenant for update: the statement sees what was committed when it
started, takes the row locks in the order of the ids, waits for a lock that another transaction
holds, and reads a row again once it has the lock.
-/

namespace Spinneret.Auth

open Spinneret.Authz Spinneret.Lib.Machine

set_option autoImplicit false

/-! ## The table -/

inductive TxPhase where
  | idle
  /-- The row is written and not committed. -/
  | inserted (row : BindingRow)
  /-- `DeleteRoleBinding` has read the row, before its transaction. -/
  | opened (row : BindingRow)
  /-- The select for update: the ids still to lock and the ids it has locked. -/
  | locking (row : BindingRow) (waiting owners : List String)
  | checked (row : BindingRow)
  /-- The row is deleted and the deletion not committed. -/
  | deleted (row : BindingRow)
  | finished (failure : Option AppError)

def TxPhase.target : TxPhase → Option BindingRow
  | .opened row | .locking row _ _ | .checked row | .deleted row => some row
  | _ => none

structure BindingTable where
  versions : List BindingRow
  distinct : (versions.map BindingRow.id).Nodup
  visible : String → Bool
  locks : String → Option Nat
  phases : Nat → TxPhase

namespace BindingTable

def rows (s : BindingTable) : List BindingRow := s.versions.filter fun row => s.visible row.id

def isOwnerOf (tenantID : String) (row : BindingRow) : Bool :=
  decide (row.tenantID = tenantID) && tenantWideOwner row

/-- The ids that `AuthTenantOwnerBindingsForUpdate` sees, in their order. -/
def ownerIds (s : BindingTable) (tenantID : String) : List String :=
  ((s.rows.filter (isOwnerOf tenantID)).map BindingRow.id).insertionSort fun a b => a ≤ b

def lockedByOther (s : BindingTable) (tx : Nat) (id : String) : Bool :=
  (s.locks id).any fun holder => holder != tx

def setPhase (s : BindingTable) (tx : Nat) (phase : TxPhase) : BindingTable :=
  { s with phases := Function.update s.phases tx phase }

def setVisible (s : BindingTable) (id : String) (seen : Bool) : BindingTable :=
  { s with visible := Function.update s.visible id seen }

def takeLock (s : BindingTable) (tx : Nat) (id : String) : BindingTable :=
  { s with locks := Function.update s.locks id (some tx) }

def releaseLocks (s : BindingTable) (tx : Nat) : BindingTable :=
  { s with locks := fun id => if s.locks id = some tx then none else s.locks id }

def finish (s : BindingTable) (tx : Nat) (failure : Option AppError) : BindingTable :=
  (s.releaseLocks tx).setPhase tx (.finished failure)

theorem set_phase_own (s : BindingTable) (tx : Nat) (phase : TxPhase) :
    (s.setPhase tx phase).phases tx = phase := Function.update_self ..

/-- `DeleteRoleBinding` up to its transaction. -/
def openBinding (s : BindingTable) (p : Principal) (bindingID : String) :
    Except AppError BindingRow := do
  let tenantID ← managedTenant p
  match s.rows.find? fun row => row.id == bindingID with
  | none => .error (.notFound "role binding not found")
  | some row =>
    check (row.tenantID = tenantID) (.notFound "role binding not found")
    check (row.role ≠ Role.owner.name ∨ p.tenantOwner tenantID = true)
      (.permissionDenied "only tenant owners can remove owner bindings")
    return row

end BindingTable

/-! ## Steps -/

inductive TxStep where
  /-- Any transaction that creates a binding; its checks only keep it from inserting. -/
  | insert (row : BindingRow)
  | begin (p : Principal) (bindingID : String)
  | select
  | lock
  | decide
  | delete
  | commit
  /-- A failed statement, a lost connection or a transaction that loses a deadlock. -/
  | rollback

open BindingTable in
/-- One step of a transaction; a step that has to wait for a lock is not enabled. -/
def txStep (s : BindingTable) (label : Nat × TxStep) : Option BindingTable :=
  let tx := label.1
  match label.2, s.phases tx with
  | .insert row, .idle =>
    if fresh : row.id ∉ s.versions.map BindingRow.id then
      some ({ s with
        versions := s.versions ++ [row]
        distinct := nodup_append_new _ s.distinct fresh
        visible := Function.update s.visible row.id false }.setPhase tx (.inserted row))
    else none
  | .begin p bindingID, .idle =>
    match s.openBinding p bindingID with
    | .error failure => some (s.setPhase tx (.finished (some failure)))
    | .ok row => some (s.setPhase tx (.opened row))
  | .select, .opened row =>
    if tenantWideOwner row then
      some (s.setPhase tx (.locking row (s.ownerIds row.tenantID) []))
    else some (s.setPhase tx (.checked row))
  | .lock, .locking row (id :: waiting) owners =>
    if s.lockedByOther tx id then none
    else if s.rows.any fun current => current.id == id && isOwnerOf row.tenantID current then
      some ((s.takeLock tx id).setPhase tx (.locking row waiting (owners ++ [id])))
    else some (s.setPhase tx (.locking row waiting owners))
  | .decide, .locking row [] owners =>
    if row.id ∈ owners ∧ owners.length ≤ 1 then
      some (s.finish tx (some (.failedPrecondition
        "cannot delete the last owner binding of the tenant")))
    else some (s.setPhase tx (.checked row))
  | .delete, .checked row =>
    if s.lockedByOther tx row.id then none
    else if s.rows.any fun current => current.id == row.id then
      some ((s.takeLock tx row.id).setPhase tx (.deleted row))
    else some (s.finish tx (some (.notFound "role binding not found")))
  | .commit, .inserted row => some ((s.setVisible row.id true).finish tx none)
  | .commit, .deleted row => some ((s.setVisible row.id false).finish tx none)
  | .rollback, .inserted _ | .rollback, .locking _ _ _ | .rollback, .checked _
  | .rollback, .deleted _ => some (s.finish tx (some .internal))
  | _, _ => none

/-- What a step can do, with what it has found. -/
inductive TxMoved (s : BindingTable) (tx : Nat) : BindingTable → Prop
  | insert (row : BindingRow) (fresh : row.id ∉ s.versions.map BindingRow.id) :
      TxMoved s tx ({ s with
        versions := s.versions ++ [row]
        distinct := nodup_append_new _ s.distinct fresh
        visible := Function.update s.visible row.id false }.setPhase tx (.inserted row))
  | opened (row : BindingRow) (present : row ∈ s.rows) :
      TxMoved s tx (s.setPhase tx (.opened row))
  | select (row : BindingRow) (before : s.phases tx = .opened row)
      (owner : tenantWideOwner row = true) :
      TxMoved s tx (s.setPhase tx (.locking row (s.ownerIds row.tenantID) []))
  | unchecked (row : BindingRow) (before : s.phases tx = .opened row)
      (other : tenantWideOwner row = false) : TxMoved s tx (s.setPhase tx (.checked row))
  | lock (row : BindingRow) (id : String) (waiting owners : List String)
      (before : s.phases tx = .locking row (id :: waiting) owners)
      (free : s.lockedByOther tx id = false)
      (current : BindingRow) (present : current ∈ s.rows) (named : current.id = id)
      (owner : BindingTable.isOwnerOf row.tenantID current = true) :
      TxMoved s tx ((s.takeLock tx id).setPhase tx (.locking row waiting (owners ++ [id])))
  | skip (row : BindingRow) (id : String) (waiting owners : List String)
      (before : s.phases tx = .locking row (id :: waiting) owners)
      (gone : ∀ current ∈ s.rows, current.id = id →
        BindingTable.isOwnerOf row.tenantID current = false) :
      TxMoved s tx (s.setPhase tx (.locking row waiting owners))
  | passed (row : BindingRow) (owners : List String)
      (before : s.phases tx = .locking row [] owners)
      (several : ¬ (row.id ∈ owners ∧ owners.length ≤ 1)) :
      TxMoved s tx (s.setPhase tx (.checked row))
  | delete (row : BindingRow) (before : s.phases tx = .checked row)
      (free : s.lockedByOther tx row.id = false)
      (present : ∃ current ∈ s.rows, current.id = row.id) :
      TxMoved s tx ((s.takeLock tx row.id).setPhase tx (.deleted row))
  | commitInsert (row : BindingRow) (before : s.phases tx = .inserted row) :
      TxMoved s tx ((s.setVisible row.id true).finish tx none)
  | commitDelete (row : BindingRow) (before : s.phases tx = .deleted row) :
      TxMoved s tx ((s.setVisible row.id false).finish tx none)
  | failed (failure : AppError) : TxMoved s tx (s.setPhase tx (.finished (some failure)))
  | stopped (failure : AppError) : TxMoved s tx (s.finish tx (some failure))

variable {row : BindingRow} {other : Nat}

section Inversion

variable {s next : BindingTable} {tx : Nat}

theorem open_binding_present {p : Principal} {bindingID : String}
    (opened : s.openBinding p bindingID = .ok row) : row ∈ s.rows := by
  unfold BindingTable.openBinding at opened
  obtain ⟨tenantID, -, opened⟩ := bind_eq_ok.mp opened
  split at opened
  · cases opened
  · rename_i found present
    simp only [bind_eq_ok] at opened
    obtain ⟨⟨⟩, -, ⟨⟩, -, opened⟩ := opened
    cases opened
    exact List.mem_of_find?_eq_some present

theorem tx_step_moved {step : TxStep} (stepped : txStep s (tx, step) = some next) :
    TxMoved s tx next := by
  unfold txStep at stepped
  dsimp only at stepped
  split at stepped
  case h_1 row before =>
      split_ifs at stepped with fresh
      cases stepped
      exact .insert row fresh
  case h_2 p bindingID before =>
      split at stepped
      · cases stepped
        exact .failed _
      · rename_i row opened
        cases stepped
        exact .opened row (open_binding_present opened)
  case h_3 row before =>
      split_ifs at stepped with owner
      · cases stepped
        exact .select row before owner
      · cases stepped
        exact .unchecked row before (Bool.eq_false_of_not_eq_true owner)
  case h_4 row id waiting owners before =>
      split_ifs at stepped with held found
      · cases stepped
        obtain ⟨current, present, matching⟩ := List.any_eq_true.mp found
        obtain ⟨named, owner⟩ := Bool.and_eq_true_iff.mp matching
        exact .lock row id waiting owners before (Bool.eq_false_of_not_eq_true held) current present
          (beq_iff_eq.mp named) owner
      · cases stepped
        refine .skip row id waiting owners before fun current present named => ?_
        by_contra owner
        refine found (List.any_eq_true.mpr ⟨current, present, Bool.and_eq_true_iff.mpr ?_⟩)
        exact ⟨beq_iff_eq.mpr named, Bool.eq_true_of_not_eq_false owner⟩
  case h_5 row owners before =>
      split_ifs at stepped with last
      · cases stepped
        exact .stopped _
      · cases stepped
        exact .passed row owners before last
  case h_6 row before =>
      split_ifs at stepped with held found
      · cases stepped
        obtain ⟨current, present, named⟩ := List.any_eq_true.mp found
        exact .delete row before (Bool.eq_false_of_not_eq_true held)
          ⟨current, present, beq_iff_eq.mp named⟩
      · cases stepped
        exact .stopped _
  case h_7 row before =>
      cases stepped
      exact .commitInsert row before
  case h_8 row before =>
      cases stepped
      exact .commitDelete row before
  case h_13 => cases stepped
  all_goals
    cases stepped
    exact .stopped _

end Inversion

/-! ## Invariant -/

/-- A committed tenant-wide owner binding under this id. -/
def OwnerRow (s : BindingTable) (tenantID id : String) : Prop :=
  ∃ row ∈ s.versions, row.id = id ∧ s.visible id = true ∧
    BindingTable.isOwnerOf tenantID row = true

def HasOwner (s : BindingTable) (tenantID : String) : Prop := ∃ id, OwnerRow s tenantID id

/-- An owner binding that the transaction keeps from being deleted by its lock. -/
def Guarded (s : BindingTable) (tx : Nat) (tenantID id : String) : Prop :=
  s.locks id = some tx ∧ OwnerRow s tenantID id

/-- What a deletion that has passed the check relies on: its row is gone, or another owner
binding is locked. -/
def Safe (s : BindingTable) (tx : Nat) (row : BindingRow) : Prop :=
  tenantWideOwner row = true → ∃ id, id ≠ row.id ∧ Guarded s tx row.tenantID id

def PhaseOk (s : BindingTable) (tx : Nat) : TxPhase → Prop
  | .idle | .finished _ => True
  | .inserted row => row ∈ s.versions ∧ s.visible row.id = false
  | .opened row => row ∈ s.versions
  | .locking row waiting owners =>
    row ∈ s.versions ∧ tenantWideOwner row = true ∧ (owners ++ waiting).Nodup ∧
      (∀ id ∈ owners, Guarded s tx row.tenantID id) ∧
      (row.id ∈ owners ++ waiting ∨ s.visible row.id = false)
  | .checked row => row ∈ s.versions ∧ (s.visible row.id = false ∨ Safe s tx row)
  | .deleted row => row ∈ s.versions ∧ s.locks row.id = some tx ∧ Safe s tx row

structure Consistent (s : BindingTable) : Prop where
  phase : ∀ tx, PhaseOk s tx (s.phases tx)
  apart : ∀ tx other row made, (s.phases tx).target = some row →
    s.phases other = .inserted made → made.id ≠ row.id
  single : ∀ tx other made again, s.phases tx = .inserted made →
    s.phases other = .inserted again → again.id = made.id → tx = other

/-- What a step of another transaction leaves to this one. -/
structure Uninterrupted (s next : BindingTable) (tx : Nat) : Prop where
  versions : ∀ row ∈ s.versions, row ∈ next.versions
  locks : ∀ id, s.locks id = some tx → next.locks id = some tx
  guarded : ∀ row ∈ s.versions, s.locks row.id = some tx → s.visible row.id = true →
    next.visible row.id = true
  target : ∀ row, (s.phases tx).target = some row → s.visible row.id = false →
    next.visible row.id = false
  pending : ∀ row, s.phases tx = .inserted row → s.visible row.id = false →
    next.visible row.id = false

section Invariant

open BindingTable

variable {s next : BindingTable} {tx : Nat}

theorem version_eq (s : BindingTable) {first second : BindingRow} (one : first ∈ s.versions)
    (two : second ∈ s.versions) (same : first.id = second.id) : first = second :=
  List.inj_on_of_nodup_map s.distinct one two same

theorem Uninterrupted.keeps {tenantID id : String} (kept : Uninterrupted s next tx)
    (guarded : Guarded s tx tenantID id) : Guarded next tx tenantID id := by
  obtain ⟨held, row, member, rfl, seen, owner⟩ := guarded
  exact ⟨kept.locks _ held, row, kept.versions row member, rfl, kept.guarded row member held seen,
    owner⟩

theorem Uninterrupted.safe (kept : Uninterrupted s next tx) (safe : Safe s tx row) :
    Safe next tx row := fun owner =>
  (safe owner).imp fun _ found => ⟨found.1, kept.keeps found.2⟩

theorem Uninterrupted.phase (kept : Uninterrupted s next tx) (ok : PhaseOk s tx (s.phases tx)) :
    PhaseOk next tx (s.phases tx) := by
  cases here : s.phases tx with
  | idle => trivial
  | finished failure => trivial
  | inserted row =>
    rw [here] at ok
    exact ⟨kept.versions row ok.1, kept.pending row here ok.2⟩
  | opened row =>
    rw [here] at ok
    exact kept.versions row ok
  | locking row waiting owners =>
    rw [here] at ok
    obtain ⟨member, owner, distinct, guarded, covered⟩ := ok
    refine ⟨kept.versions row member, owner, distinct,
      fun id listed => kept.keeps (guarded id listed), covered.imp_right ?_⟩
    exact kept.target row (by rw [here]; rfl)
  | checked row =>
    rw [here] at ok
    refine ⟨kept.versions row ok.1, ok.2.imp (kept.target row (by rw [here]; rfl)) kept.safe⟩
  | deleted row =>
    rw [here] at ok
    exact ⟨kept.versions row ok.1, kept.locks _ ok.2.1, kept.safe ok.2.2⟩

/-- A step that only sets the phase, and the locks of its own transaction, disturbs no other. -/
theorem undisturbed_of_same (versions : next.versions = s.versions)
    (visible : next.visible = s.visible)
    (locks : ∀ id, s.locks id = some other → next.locks id = some other) :
    Uninterrupted s next other := by
  refine ⟨fun _ member => versions ▸ member, locks, ?_, ?_, ?_⟩
  · exact fun _ _ _ seen => visible ▸ seen
  · exact fun _ _ gone => visible ▸ gone
  · exact fun _ _ gone => visible ▸ gone

theorem release_other (apart : other ≠ tx) {id : String} (held : s.locks id = some other) :
    (s.releaseLocks tx).locks id = some other := by
  show (if s.locks id = some tx then none else s.locks id) = some other
  rw [if_neg fun own => apart (Option.some.inj (held.symm.trans own)), held]

theorem take_other (apart : other ≠ tx) {id taken : String}
    (free : s.lockedByOther tx taken = false) (held : s.locks id = some other) :
    (s.takeLock tx taken).locks id = some other := by
  show Function.update s.locks taken (some tx) id = some other
  by_cases same : id = taken
  · subst same
    unfold BindingTable.lockedByOther at free
    rw [held] at free
    simp [apart] at free
  · rw [Function.update_of_ne same, held]

theorem update_false {visible : String → Bool} {id other : String} (gone : visible other = false) :
    Function.update visible id false other = false := by
  by_cases same : other = id
  · rw [same, Function.update_self]
  · rw [Function.update_of_ne same, gone]

theorem TxMoved.undisturbed (moved : TxMoved s tx next) (ok : Consistent s) (apart : other ≠ tx) :
    Uninterrupted s next other := by
  cases moved with
  | insert row fresh =>
    refine ⟨fun _ member => List.mem_append_left _ member, fun _ held => held, ?_, ?_, ?_⟩
    · intro old member held seen
      show Function.update s.visible row.id false old.id = true
      have known : old.id ≠ row.id := fun same => fresh (same ▸ List.mem_map_of_mem member)
      rw [Function.update_of_ne known, seen]
    · intro old _ gone
      exact update_false gone
    · intro old _ gone
      exact update_false gone
  | opened row present => exact undisturbed_of_same rfl rfl fun _ held => held
  | select row before owner => exact undisturbed_of_same rfl rfl fun _ held => held
  | unchecked row before owner => exact undisturbed_of_same rfl rfl fun _ held => held
  | lock row id waiting owners before free current present named owner =>
    exact undisturbed_of_same rfl rfl fun _ held => take_other apart free held
  | skip row id waiting owners before gone =>
    exact undisturbed_of_same rfl rfl fun _ held => held
  | passed row owners before several => exact undisturbed_of_same rfl rfl fun _ held => held
  | delete row before free present =>
    exact undisturbed_of_same rfl rfl fun _ held => take_other apart free held
  | commitInsert row before =>
    have still {old : BindingRow} (unlike : old.id ≠ row.id) (gone : s.visible old.id = false) :
        Function.update s.visible row.id true old.id = false := by
      rw [Function.update_of_ne unlike, gone]
    refine ⟨fun _ member => member, fun _ held => release_other apart held, ?_, ?_, ?_⟩
    · intro old member held seen
      show Function.update s.visible row.id true old.id = true
      by_cases same : old.id = row.id
      · rw [same, Function.update_self]
      · rw [Function.update_of_ne same, seen]
    · intro old aimed gone
      exact still (ok.apart other tx old row aimed before).symm gone
    · intro old pending gone
      refine still (fun same => apart ?_) gone
      exact (ok.single tx other row old before pending same).symm
  | commitDelete row before =>
    have holds := ok.phase tx
    rw [before] at holds
    refine ⟨fun _ member => member, fun _ held => release_other apart held, ?_, ?_, ?_⟩
    · intro old member held seen
      show Function.update s.visible row.id false old.id = true
      have unlike : old.id ≠ row.id := by
        intro same
        rw [same, holds.2.1] at held
        exact apart (Option.some.inj held).symm
      rw [Function.update_of_ne unlike, seen]
    · intro old _ gone
      exact update_false gone
    · intro old _ gone
      exact update_false gone
  | failed failure => exact undisturbed_of_same rfl rfl fun _ held => held
  | stopped failure => exact undisturbed_of_same rfl rfl fun _ held => release_other apart held

theorem mem_rows : row ∈ s.rows ↔ row ∈ s.versions ∧ s.visible row.id = true :=
  List.mem_filter

theorem owner_of_self (owner : tenantWideOwner row = true) :
    BindingTable.isOwnerOf row.tenantID row = true := by
  simp [BindingTable.isOwnerOf, owner]

theorem owner_ids_mem (member : row ∈ s.versions) (seen : s.visible row.id = true)
    (owner : tenantWideOwner row = true) : row.id ∈ s.ownerIds row.tenantID := by
  unfold BindingTable.ownerIds
  rw [List.mem_insertionSort]
  exact List.mem_map_of_mem (List.mem_filter.mpr ⟨mem_rows.mpr ⟨member, seen⟩, owner_of_self owner⟩)

theorem owner_ids_nodup (s : BindingTable) (tenantID : String) : (s.ownerIds tenantID).Nodup := by
  unfold BindingTable.ownerIds
  rw [(List.perm_insertionSort _ _).nodup_iff]
  exact s.distinct.sublist ((List.filter_sublist.trans List.filter_sublist).map _)

theorem exists_other {ids : List String} (distinct : ids.Nodup) (two : 1 < ids.length)
    (id : String) : ∃ other ∈ ids, other ≠ id := by
  match ids, distinct, two with
  | first :: second :: _, distinct, _ =>
    by_cases same : first = id
    · refine ⟨second, by simp, fun again => ?_⟩
      rw [same, ← again] at distinct
      simp at distinct
    · exact ⟨first, by simp, same⟩

theorem take_own {id taken : String} (held : s.locks id = some tx) :
    (s.takeLock tx taken).locks id = some tx := by
  show Function.update s.locks taken (some tx) id = some tx
  by_cases same : id = taken
  · rw [same, Function.update_self]
  · rw [Function.update_of_ne same, held]

theorem TxMoved.own (moved : TxMoved s tx next) (ok : Consistent s) :
    PhaseOk next tx (next.phases tx) := by
  have before := ok.phase tx
  cases moved with
  | insert row fresh =>
    rw [set_phase_own]
    exact ⟨List.mem_append_right _ List.mem_cons_self, Function.update_self ..⟩
  | opened row present =>
    rw [set_phase_own]
    exact (mem_rows.mp present).1
  | select row here owner =>
    rw [here] at before
    rw [set_phase_own]
    refine ⟨before, owner, owner_ids_nodup s _,
      fun id listed => absurd listed List.not_mem_nil, ?_⟩
    by_cases seen : s.visible row.id = true
    · exact .inl (owner_ids_mem before seen owner)
    · exact .inr (Bool.eq_false_of_not_eq_true seen)
  | unchecked row here other =>
    rw [here] at before
    rw [set_phase_own]
    exact ⟨before, .inr fun owner => absurd (other.symm.trans owner) nofun⟩
  | lock row id waiting owners here free current present named owner =>
    rw [here] at before
    obtain ⟨member, wide, distinct, guarded, covered⟩ := before
    rw [set_phase_own]
    have order : owners ++ [id] ++ waiting = owners ++ id :: waiting := by simp
    refine ⟨member, wide, order ▸ distinct, fun other listed => ?_, order ▸ covered⟩
    rcases List.mem_append.mp listed with earlier | here'
    · exact ⟨take_own (guarded other earlier).1, (guarded other earlier).2⟩
    · rw [List.mem_singleton.mp here']
      refine ⟨Function.update_self .., current, (mem_rows.mp present).1, named, ?_, owner⟩
      exact named ▸ (mem_rows.mp present).2
  | skip row id waiting owners here gone =>
    rw [here] at before
    obtain ⟨member, wide, distinct, guarded, covered⟩ := before
    rw [set_phase_own]
    refine ⟨member, wide, distinct.sublist ?_, guarded, ?_⟩
    · exact (List.Sublist.refl owners).append (List.sublist_cons_self id waiting)
    · rcases covered with listed | hidden
      · by_cases own : row.id = id
        · -- the row of the deletion itself was read again and is no owner row any more
          refine .inr (Bool.eq_false_of_not_eq_true fun seen => ?_)
          have still := gone row (mem_rows.mpr ⟨member, seen⟩) own
          exact absurd (still.symm.trans (owner_of_self wide)) nofun
        · refine .inl ?_
          simp only [List.mem_append, List.mem_cons, own, false_or] at listed ⊢
          exact listed
      · exact .inr hidden
  | passed row owners here several =>
    rw [here] at before
    obtain ⟨member, wide, distinct, guarded, covered⟩ := before
    rw [List.append_nil] at distinct covered
    rw [set_phase_own]
    refine ⟨member, ?_⟩
    rcases covered with listed | hidden
    · refine .inr fun _ => ?_
      have two : 1 < owners.length := not_le.mp fun few => several ⟨listed, few⟩
      obtain ⟨id, other, unlike⟩ := exists_other distinct two row.id
      exact ⟨id, unlike, guarded id other⟩
    · exact .inl hidden
  | delete row here free present =>
    rw [here] at before
    obtain ⟨member, either⟩ := before
    rw [set_phase_own]
    refine ⟨member, Function.update_self .., fun wide => ?_⟩
    obtain ⟨current, there, named⟩ := present
    have seen : s.visible row.id = true := named ▸ (mem_rows.mp there).2
    rcases either with hidden | safe
    · exact absurd (hidden.symm.trans seen) nofun
    · obtain ⟨id, unlike, held, owner⟩ := safe wide
      exact ⟨id, unlike, take_own held, owner⟩
  | commitInsert row here | commitDelete row here =>
    rw [finish, set_phase_own]
    trivial
  | failed failure =>
    rw [set_phase_own]
    trivial
  | stopped failure =>
    rw [finish, set_phase_own]
    trivial

theorem TxMoved.phases_other (moved : TxMoved s tx next) (apart : other ≠ tx) :
    next.phases other = s.phases other := by
  cases moved <;> exact Function.update_of_ne apart ..

theorem TxMoved.target (moved : TxMoved s tx next) (aimed : (next.phases tx).target = some row) :
    (s.phases tx).target = some row ∨ row ∈ s.rows := by
  cases moved with
  | opened found present =>
    rw [set_phase_own] at aimed
    cases aimed
    exact .inr present
  | select found here _ | unchecked found here _ | passed found _ here _ | delete found here _ _
  | lock found _ _ _ here _ _ _ _ _ | skip found _ _ _ here _ =>
    rw [set_phase_own] at aimed
    rw [here]
    exact .inl aimed
  | insert _ _ | failed _ =>
    rw [set_phase_own] at aimed
    cases aimed
  | commitInsert _ _ | commitDelete _ _ | stopped _ =>
    rw [finish, set_phase_own] at aimed
    cases aimed

theorem TxMoved.inserted (moved : TxMoved s tx next) {made : BindingRow}
    (pending : next.phases tx = .inserted made) : made.id ∉ s.versions.map BindingRow.id := by
  cases moved with
  | insert row fresh =>
    rw [set_phase_own] at pending
    cases pending
    exact fresh
  | opened _ _ | select _ _ _ | unchecked _ _ _ | passed _ _ _ _ | delete _ _ _ _
  | lock _ _ _ _ _ _ _ _ _ _ | skip _ _ _ _ _ _ | failed _ =>
    rw [set_phase_own] at pending
    cases pending
  | commitInsert _ _ | commitDelete _ _ | stopped _ =>
    rw [finish, set_phase_own] at pending
    cases pending

theorem target_version (ok : PhaseOk s tx (s.phases tx)) (aimed : (s.phases tx).target = some row) :
    row ∈ s.versions := by
  cases here : s.phases tx with
  | idle | finished _ | inserted _ =>
    rw [here] at aimed
    cases aimed
  | opened found =>
    rw [here] at ok aimed
    cases aimed
    exact ok
  | locking found _ _ | checked found | deleted found =>
    rw [here] at ok aimed
    cases aimed
    exact ok.1

theorem pending_version (ok : Consistent s) {made : BindingRow}
    (pending : s.phases tx = .inserted made) :
    made ∈ s.versions ∧ s.visible made.id = false := by
  have holds := ok.phase tx
  rw [pending] at holds
  exact holds

theorem TxMoved.consistent (moved : TxMoved s tx next) (ok : Consistent s) : Consistent next where
  phase other := by
    by_cases acting : other = tx
    · subst acting
      exact moved.own ok
    · rw [moved.phases_other acting]
      exact (moved.undisturbed ok acting).phase (ok.phase other)
  apart one two row made aimed pending := by
    by_cases inserting : two = tx
    · subst inserting
      have fresh := moved.inserted pending
      have unlike : one ≠ two := by
        rintro rfl
        rw [pending] at aimed
        cases aimed
      rw [moved.phases_other unlike] at aimed
      intro same
      exact fresh (same ▸ List.mem_map_of_mem (target_version (ok.phase one) aimed))
    · rw [moved.phases_other inserting] at pending
      by_cases acting : one = tx
      · subst acting
        rcases moved.target aimed with earlier | present
        · exact ok.apart one two row made earlier pending
        · intro same
          have hidden := (pending_version ok pending).2
          rw [same] at hidden
          exact absurd (hidden.symm.trans (mem_rows.mp present).2) nofun
      · rw [moved.phases_other acting] at aimed
        exact ok.apart one two row made aimed pending
  single one two made again first second same := by
    by_contra unlike
    by_cases acting : one = tx
    · subst acting
      rw [moved.phases_other (Ne.symm unlike)] at second
      refine moved.inserted first (same ▸ List.mem_map_of_mem (pending_version ok second).1)
    · rw [moved.phases_other acting] at first
      by_cases inserting : two = tx
      · subst inserting
        exact moved.inserted second (same ▸ List.mem_map_of_mem (pending_version ok first).1)
      · rw [moved.phases_other inserting] at second
        exact unlike (ok.single one two made again first second same)

/-! ## Owners -/

theorem owner_kept {tenantID : String} (owned : HasOwner s tenantID)
    (versions : ∀ row ∈ s.versions, row ∈ next.versions)
    (visible : ∀ row ∈ s.versions, s.visible row.id = true → next.visible row.id = true) :
    HasOwner next tenantID := by
  obtain ⟨id, row, member, rfl, seen, owner⟩ := owned
  exact ⟨row.id, row, versions row member, rfl, visible row member seen, owner⟩

/-- A committed deletion leaves the owner binding that its transaction has locked. -/
theorem commit_delete_owner (ok : Consistent s) (before : s.phases tx = .deleted row)
    {tenantID : String} (owned : HasOwner s tenantID) :
    HasOwner ((s.setVisible row.id false).finish tx none) tenantID := by
  have holds := ok.phase tx
  rw [before] at holds
  obtain ⟨member, -, safe⟩ := holds
  have survives {id : String} (unlike : id ≠ row.id) (found : OwnerRow s tenantID id) :
      HasOwner ((s.setVisible row.id false).finish tx none) tenantID := by
    obtain ⟨kept, there, rfl, seen, owner⟩ := found
    refine ⟨kept.id, kept, there, rfl, ?_, owner⟩
    show Function.update s.visible row.id false kept.id = true
    rw [Function.update_of_ne unlike, seen]
  obtain ⟨id, found⟩ := owned
  by_cases same : id = row.id
  · -- the row being deleted is the owner binding at hand, so the check has run for it
    obtain ⟨kept, there, named, -, owner⟩ := found
    obtain rfl := version_eq s there member (named.trans same)
    obtain ⟨tenant, wide⟩ := Bool.and_eq_true_iff.mp owner
    obtain ⟨other, unlike, -, found⟩ := safe wide
    rw [of_decide_eq_true tenant] at found
    exact survives unlike found
  · exact survives same found

theorem TxMoved.owner (moved : TxMoved s tx next) (ok : Consistent s) {tenantID : String}
    (owned : HasOwner s tenantID) : HasOwner next tenantID := by
  cases moved with
  | insert row fresh =>
    refine owner_kept owned (fun _ member => List.mem_append_left _ member) ?_
    intro old member seen
    show Function.update s.visible row.id false old.id = true
    have known : old.id ≠ row.id := fun same => fresh (same ▸ List.mem_map_of_mem member)
    rw [Function.update_of_ne known, seen]
  | commitInsert row before =>
    refine owner_kept owned (fun _ member => member) fun old _ seen => ?_
    show Function.update s.visible row.id true old.id = true
    by_cases same : old.id = row.id
    · rw [same, Function.update_self]
    · rw [Function.update_of_ne same, seen]
  | commitDelete row before => exact commit_delete_owner ok before owned
  | opened | select | unchecked | lock | skip | passed | delete | failed | stopped =>
    exact owner_kept owned (fun _ member => member) fun _ _ seen => seen

end Invariant

def Quiet (s : BindingTable) : Prop := ∀ tx, s.phases tx = .idle

theorem quiet_consistent {s : BindingTable} (quiet : Quiet s) : Consistent s where
  phase tx := by
    rw [quiet tx]
    trivial
  apart tx other row made aimed := by
    rw [quiet tx] at aimed
    cases aimed
  single tx other made again pending := by
    rw [quiet tx] at pending
    cases pending

/-- In every interleaving of creations and deletions a tenant that has a tenant-wide owner
binding at some point has one at every later point. -/
theorem last_owner_stays {start middle final : BindingTable} (quiet : Quiet start)
    {before after : List (Nat × TxStep)} (reached : run txStep start before = some middle)
    {tenantID : String} (owned : HasOwner middle tenantID)
    (later : run txStep middle after = some final) : HasOwner final tenantID := by
  have stepwise (s : BindingTable) (label : Nat × TxStep) (next : BindingTable)
      (ok : Consistent s) (stepped : txStep s label = some next) : Consistent next :=
    (tx_step_moved stepped).consistent ok
  have consistent := run_invariant stepwise (quiet_consistent quiet) reached
  refine (@run_invariant _ _ _ (fun s => Consistent s ∧ HasOwner s tenantID) ?_ _ _ _
    ⟨consistent, owned⟩ later).2
  intro s label next kept stepped
  exact ⟨stepwise s label next kept.1 stepped, (tx_step_moved stepped).owner kept.1 kept.2⟩

/-! ## Two deletions at once -/

def ownerRow (id : String) : BindingRow where
  id := id
  tenantID := "t1"
  role := "owner"
  namespaceID := none
  siteIds := []
  extraPermissions := []

def twoOwners : BindingTable where
  versions := [ownerRow "b1", ownerRow "b2"]
  distinct := by decide
  visible _ := true
  locks _ := none
  phases _ := .idle

def tenantRoot : Principal :=
  { kind := .user, id := "root", tenantID := "t1", isPlatformAdmin := true }

/-- Both deletions see two owners; the second one waits for the first and then is refused. -/
def bothDelete : List (Nat × TxStep) :=
  [(1, .begin tenantRoot "b1"), (2, .begin tenantRoot "b2"), (1, .select), (2, .select),
    (1, .lock), (1, .lock), (1, .decide), (1, .delete), (1, .commit),
    (2, .lock), (2, .lock), (2, .decide)]

theorem second_deletion_refused :
    ∃ final, run txStep twoOwners bothDelete = some final ∧
      final.rows.map BindingRow.id = ["b2"] ∧ HasOwner final "t1" := by
  have ran : (run txStep twoOwners bothDelete).map (fun s => s.rows.map BindingRow.id) =
      some ["b2"] := by decide +kernel
  obtain ⟨final, reached, rows⟩ := Option.map_eq_some_iff.mp ran
  refine ⟨final, reached, rows, ?_⟩
  have owned : HasOwner twoOwners "t1" :=
    ⟨"b1", ownerRow "b1", List.mem_cons_self, rfl, rfl, by decide⟩
  exact last_owner_stays (fun _ => rfl) (run_nil twoOwners) owned reached

end Spinneret.Auth
