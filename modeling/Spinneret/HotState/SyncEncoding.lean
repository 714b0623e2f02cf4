import Spinneret.Lib.Counted
import Spinneret.Lib.Double
import Spinneret.Lib.FirstSeen
import Spinneret.Site.Path

/-!
# The argument vector of an identity sync

`identityCallArgs` writes a batch of identity records: a head, the group profiles the
records use under numbers of the batch, the accounts the records name, and sixteen values
per record. `decodeCall` reads them as the sync script does with its running position.
-/

namespace Spinneret.HotState.SyncEncoding

open Spinneret.Lib
open Spinneret.Site (asciiBytes)

set_option autoImplicit false

/-! ## Encoder -/

def itoa (value : Int64) : Text := decimal value.toInt

structure Profile where
  eligible : List Int64
  other : List Int64
  deriving DecidableEq

/-- Times are Unix milliseconds. -/
structure IdentityRow where
  id : Text
  state : Text
  typeName : Text
  typeVersion : Int64
  payloadVersion : Int64
  region : Text
  banUntil : Option Int64
  quarantineUntil : Option Int64
  activatedAt : Option Int64
  proxyHkey : Option Int64
  stateChangedAt : Int64
  accountHkey : Option Int64
  accountState : Option Text
  accountBanUntil : Option Int64
  accountCooldownUntil : Option Int64
  deriving DecidableEq

/-- A record of a batch for a plan with `profiles` profiles; a removal has no row. -/
structure IdentityRecord (profiles : Nat) where
  row : Option IdentityRow
  hkey : Int64
  profile : Fin profiles
  jitter : Int64

structure IdentityBatch where
  mode : Text
  accountMode : Text
  resetHealth : Bool
  resetFailures : Bool
  coldStart : Bool
  accountSct : Int64 → Int64

def flag (value : Bool) : Text := if value then asciiBytes "1" else asciiBytes "0"

def timeMs (time : Option Int64) : Int64 := time.getD 0

def banUntilMs (state : Text) (ends : Option Int64) : Int64 :=
  if state ≠ asciiBytes "banned" then 0 else ends.getD (-1)

def quarantineUntilMs (state : Text) (ends : Option Int64) : Int64 :=
  if state ≠ asciiBytes "quarantined" then 0 else ends.getD 0

def comma : Fin 256 := 44

def csvInt64 (values : List Int64) : Text := [comma].intercalate (values.map itoa)

structure AccountArgs where
  hkey : Int64
  st : Text
  bu : Int64
  cd : Int64
  sct : Int64
  deriving DecidableEq

variable {profiles : Nat} (batch : IdentityBatch)

/-- The account a row names, with the values of the row. -/
def accountArgs (row : IdentityRow) : Option AccountArgs :=
  row.accountHkey.map fun key =>
    let state := row.accountState.getD (asciiBytes "active")
    { hkey := key
      st := state
      bu := banUntilMs state row.accountBanUntil
      cd := timeMs row.accountCooldownUntil
      sct := batch.accountSct key }

/-- The accounts that sync records name, record by record. -/
def namedAccounts (recs : List (IdentityRecord profiles)) : List AccountArgs :=
  recs.filterMap fun rec => rec.row.bind (accountArgs batch)

/-- The loop over the records notes every profile and every account when it first sees it. -/
def profileOrder (recs : List (IdentityRecord profiles)) : List (Fin profiles) :=
  (recs.map IdentityRecord.profile).foldl (noteFirst id) []

def accountOrder (recs : List (IdentityRecord profiles)) : List AccountArgs :=
  (namedAccounts batch recs).foldl (noteFirst AccountArgs.hkey) []

/-- The number of a profile in the batch: its place in the order, counted from one. -/
def localProfile (order : List (Fin profiles)) (profile : Fin profiles) : Nat :=
  order.idxOf profile + 1

def headArgs (baselines : Text) (nowMs : Int64) : List Text :=
  [itoa nowMs, batch.mode, if batch.accountMode = [] then asciiBytes "m" else batch.accountMode,
    flag batch.resetHealth, flag batch.resetFailures, flag batch.coldStart,
    if batch.resetHealth then baselines else []]

def profileArgs (profile : Profile) : List Text :=
  [csvInt64 profile.eligible, csvInt64 profile.other]

def accountValues (account : AccountArgs) : List Text :=
  [itoa account.hkey, account.st, itoa account.bu, itoa account.cd, itoa account.sct]

def recordArgs (order : List (Fin profiles)) (rec : IdentityRecord profiles) : List Text :=
  let prof := decimal (localProfile order rec.profile)
  match rec.row with
  | none =>
    [asciiBytes "R", itoa rec.hkey, [], [], [], [], [], [], [], [], [], [], [], prof,
      asciiBytes "0", asciiBytes "0"]
  | some row =>
    [asciiBytes "S", itoa rec.hkey, row.id, row.state, row.typeName, itoa row.typeVersion,
      itoa row.payloadVersion, (row.accountHkey.map itoa).getD [], row.region,
      itoa (banUntilMs row.state row.banUntil),
      itoa (quarantineUntilMs row.state row.quarantineUntil), itoa (timeMs row.activatedAt),
      (row.proxyHkey.map itoa).getD [], prof, itoa rec.jitter, itoa row.stateChangedAt]

def identityCallArgs (plan : Fin profiles → Profile) (recs : List (IdentityRecord profiles))
    (baselines : Text) (nowMs : Int64) : List Text :=
  let order := profileOrder recs
  headArgs batch baselines nowMs ++
    (decimal order.length :: (order.flatMap (fun profile => profileArgs (plan profile)) ++
      (decimal (accountOrder batch recs).length ::
        ((accountOrder batch recs).flatMap accountValues ++ recs.flatMap (recordArgs order)))))

/-! ## Decoder -/

/-- `sp_num` on an integer numeral. -/
def num (value : Option Text) (fallback : Int) : Int := (value.bind readDouble).getD fallback

structure Head where
  now : Int
  merge : Bool
  mergeAccounts : Bool
  resetHealth : Bool
  resetFailures : Bool
  cold : Bool
  deriving DecidableEq

def argAt (argv : List Text) (place : Nat) : Option Text := argv[place - 1]?

def decodeHead (argv : List Text) : Head where
  now := num (argAt argv 1) 0
  merge := decide (argAt argv 2 = some (asciiBytes "m"))
  mergeAccounts := decide (argAt argv 3 = some (asciiBytes "m"))
  resetHealth := decide (argAt argv 4 = some (asciiBytes "1"))
  resetFailures := !decide (argAt argv 4 = some (asciiBytes "1")) &&
    decide (argAt argv 5 = some (asciiBytes "1"))
  cold := decide (argAt argv 6 = some (asciiBytes "1"))

def spSplitComma (text : Text) : List Text := if text = [] then [] else text.splitOn comma

structure GroupLists where
  eligible : List Text
  other : List Text
  deriving DecidableEq

def readProfile (args : List Text) : Option (GroupLists × List Text) := do
  let (eligible, args) ← nextItem args
  let (other, args) ← nextItem args
  return ({ eligible := spSplitComma eligible, other := spSplitComma other }, args)

structure DecodedAccount where
  hkey : Text
  st : Text
  bu : Text
  cd : Int
  sct : Int
  deriving DecidableEq

def readAccount (args : List Text) : Option (DecodedAccount × List Text) := do
  let (hkey, args) ← nextItem args
  let (st, args) ← nextItem args
  let (bu, args) ← nextItem args
  let (cd, args) ← nextItem args
  let (sct, args) ← nextItem args
  return ({ hkey := hkey, st := st, bu := bu, cd := num (some cd) 0, sct := num (some sct) 0 },
    args)

inductive DecodedRecord where
  | remove (i : Text) (groups : GroupLists)
  | sync (i iid st ty tv pv acc rg bu qu act px : Text) (groups : GroupLists) (jitter sct : Int)
  deriving DecidableEq

/-- The profile of a number; a number without a profile has no groups. -/
def profileAt (lists : List GroupLists) (number : Int) : GroupLists :=
  if 0 < number then (lists[(number - 1).toNat]?).getD ⟨[], []⟩ else ⟨[], []⟩

/-- One round of the record loop on its sixteen values. -/
def decodeRecord (lists : List GroupLists) (values : List Text) : DecodedRecord :=
  let value := fun place => values.getD place []
  let groups := profileAt lists (num (some (value 13)) 0)
  if value 0 = asciiBytes "R" then .remove (value 1) groups
  else
    .sync (value 1) (value 2) (value 3) (value 4) (value 5) (value 6) (value 7) (value 8)
      (value 9) (value 10) (value 11) (value 12) groups (num (some (value 14)) 0)
      (num (some (value 15)) 0)

def identityRecordValues : Nat := 16

/-- The loop runs while sixteen values are left. -/
def readRecords (lists : List GroupLists) : Nat → List Text → List DecodedRecord
  | 0, _ => []
  | fuel + 1, args =>
    if identityRecordValues ≤ args.length then
      decodeRecord lists (args.take identityRecordValues) ::
        readRecords lists fuel (args.drop identityRecordValues)
    else []

structure DecodedCall where
  head : Head
  profiles : List GroupLists
  accounts : List DecodedAccount
  records : List DecodedRecord
  deriving DecidableEq

def readCount (args : List Text) : Option (Int × List Text) := do
  let (text, args) ← nextItem args
  return (num (some text) 0, args)

/-- A vector that ends within its tables ends the decoding. -/
def decodeCall (argv : List Text) : Option DecodedCall := do
  let (profiles, args) ← readCount (argv.drop 7)
  let (lists, args) ← readTimes readProfile profiles.toNat args
  let (accounts, args) ← readCount args
  let (rows, args) ← readTimes readAccount accounts.toNat args
  return {
    head := decodeHead argv
    profiles := lists
    accounts := rows
    records := readRecords lists args.length args }

/-! ## Tables -/

theorem num_decimal (value : Int) (fallback : Int) :
    num (some (decimal value)) fallback = roundDouble value := by
  simp [num]

theorem num_count {count : Nat} (small : count ≤ 2 ^ 53) (fallback : Int) :
    num (some (decimal count)) fallback = count := by
  rw [num_decimal, round_double_exact (by omega)]

theorem read_count_decimal {count : Nat} (small : count ≤ 2 ^ 53) (rest : List Text) :
    readCount (decimal count :: rest) = some ((count : Int), rest) := by
  simp [readCount, nextItem, num_count small]

theorem split_csv (values : List Int64) : spSplitComma (csvInt64 values) = values.map itoa := by
  have plain : ∀ text ∈ values.map itoa, comma ∉ text := by
    intro text listed
    obtain ⟨value, -, rfl⟩ := List.mem_map.mp listed
    exact not_mem_decimal (by decide) (by decide) _
  cases values with
  | nil => rfl
  | cons value values =>
    have nonempty : csvInt64 (value :: values) ≠ [] := by
      intro empty
      have first := decimal_ne_nil value.toInt
      cases values with
      | nil =>
        rw [csvInt64, List.map_singleton, List.intercalate_singleton] at empty
        exact first empty
      | cons next values =>
        rw [csvInt64, List.map_cons, List.map_cons, List.intercalate_cons_cons] at empty
        simp at empty
    rw [spSplitComma, if_neg nonempty, csvInt64, List.splitOn_intercalate comma plain (by simp)]

def groupLists (profile : Profile) : GroupLists where
  eligible := profile.eligible.map itoa
  other := profile.other.map itoa

theorem read_profile_args (profile : Profile) (rest : List Text) :
    readProfile (profileArgs profile ++ rest) = some (groupLists profile, rest) := by
  simp [readProfile, profileArgs, nextItem, split_csv, groupLists]

def decodedAccount (account : AccountArgs) : DecodedAccount where
  hkey := itoa account.hkey
  st := account.st
  bu := itoa account.bu
  cd := roundDouble account.cd.toInt
  sct := roundDouble account.sct.toInt

theorem read_account_values (account : AccountArgs) (rest : List Text) :
    readAccount (accountValues account ++ rest) = some (decodedAccount account, rest) := by
  simp [readAccount, accountValues, nextItem, itoa, num_decimal, decodedAccount]

/-! ## Records -/

/-- What the script gets of a record, with the lists of its own profile. -/
def decodedRecord (plan : Fin profiles → Profile) (rec : IdentityRecord profiles) :
    DecodedRecord :=
  let groups := groupLists (plan rec.profile)
  match rec.row with
  | none => .remove (itoa rec.hkey) groups
  | some row =>
    .sync (itoa rec.hkey) row.id row.state row.typeName (itoa row.typeVersion)
      (itoa row.payloadVersion) ((row.accountHkey.map itoa).getD []) row.region
      (itoa (banUntilMs row.state row.banUntil))
      (itoa (quarantineUntilMs row.state row.quarantineUntil)) (itoa (timeMs row.activatedAt))
      ((row.proxyHkey.map itoa).getD []) groups (roundDouble rec.jitter.toInt)
      (roundDouble row.stateChangedAt.toInt)

theorem record_args_length (order : List (Fin profiles)) (rec : IdentityRecord profiles) :
    (recordArgs order rec).length = identityRecordValues := by
  unfold recordArgs
  cases rec.row <;> rfl

/-- The number of a listed profile finds its lists. -/
theorem profile_at_local {order : List (Fin profiles)} {profile : Fin profiles}
    (listed : profile ∈ order) (plan : Fin profiles → Profile) :
    profileAt (order.map fun one => groupLists (plan one)) (localProfile order profile) =
      groupLists (plan profile) := by
  have place : ((localProfile order profile : Int) - 1).toNat = order.idxOf profile := by
    unfold localProfile
    omega
  rw [profileAt, if_pos (by unfold localProfile; omega), place, List.getElem?_map,
    List.getElem?_idxOf listed]
  rfl

theorem decode_record_args {order : List (Fin profiles)} {rec : IdentityRecord profiles}
    (listed : rec.profile ∈ order) (small : order.length < 2 ^ 53)
    (plan : Fin profiles → Profile) :
    decodeRecord (order.map fun one => groupLists (plan one)) (recordArgs order rec) =
      decodedRecord plan rec := by
  have place := List.idxOf_lt_length_iff.mpr listed
  have number : ∀ fallback, num (some (decimal (localProfile order rec.profile))) fallback =
      localProfile order rec.profile := fun fallback =>
    num_count (by unfold localProfile; omega) fallback
  have groups := profile_at_local listed plan
  unfold decodeRecord recordArgs decodedRecord
  cases rec.row with
  | none =>
    simp only [List.getD_cons_zero, List.getD_cons_succ, number, groups, if_true]
  | some row =>
    have isSync : asciiBytes "S" ≠ asciiBytes "R" := by decide
    simp only [List.getD_cons_zero, List.getD_cons_succ, number, groups, isSync, if_false]
    simp only [itoa, num_decimal]

/-- The record loop reads records of sixteen values, one after the other. -/
theorem read_records_flat {lists : List GroupLists} {order : List (Fin profiles)}
    {plan : Fin profiles → Profile} (recs : List (IdentityRecord profiles))
    (one : ∀ rec ∈ recs, decodeRecord lists (recordArgs order rec) = decodedRecord plan rec)
    {fuel : Nat} (enough : recs.length ≤ fuel) :
    readRecords lists fuel (recs.flatMap (recordArgs order)) = recs.map (decodedRecord plan) := by
  induction recs generalizing fuel with
  | nil => cases fuel <;> rfl
  | cons rec recs ih =>
    have length := record_args_length order rec
    obtain ⟨fuel, rfl⟩ : ∃ less, fuel = less + 1 := ⟨fuel - 1, by
      rw [List.length_cons] at enough
      omega⟩
    have later := @ih (fun other listed => one other (List.mem_cons_of_mem _ listed)) fuel
      (Nat.le_of_succ_le_succ enough)
    rw [List.flatMap_cons, readRecords, if_pos, ← length, List.take_left, List.drop_left, later,
      one rec List.mem_cons_self, List.map_cons]
    rw [List.length_append, length]
    omega

/-! ## The round trip -/

def decodedHead (nowMs : Int64) : Head where
  now := roundDouble nowMs.toInt
  merge := decide (batch.mode = asciiBytes "m")
  mergeAccounts := decide (batch.accountMode = [] ∨ batch.accountMode = asciiBytes "m")
  resetHealth := batch.resetHealth
  resetFailures := !batch.resetHealth && batch.resetFailures
  cold := batch.coldStart

theorem flag_read (value : Bool) : decide (flag value = asciiBytes "1") = value := by
  cases value <;> decide

theorem decode_head_args (baselines : Text) (nowMs : Int64) (rest : List Text) :
    decodeHead (headArgs batch baselines nowMs ++ rest) = decodedHead batch nowMs := by
  simp [decodeHead, headArgs, argAt, decodedHead, flag_read, itoa, num_decimal]

def Names (key : Int64) (rec : IdentityRecord profiles) : Prop :=
  ∃ row, rec.row = some row ∧ row.accountHkey = some key

theorem names_iff (key : Int64) (rec : IdentityRecord profiles) :
    Names key rec ↔ ∃ account, rec.row.bind (accountArgs batch) = some account ∧
      account.hkey = key := by
  constructor
  · rintro ⟨row, isRow, isKey⟩
    rw [isRow, Option.bind_some, accountArgs, isKey, Option.map_some]
    exact ⟨_, rfl, rfl⟩
  · rintro ⟨account, found, rfl⟩
    obtain ⟨row, isRow, named⟩ := Option.bind_eq_some_iff.mp found
    obtain ⟨one, isKey, rfl⟩ := Option.map_eq_some_iff.mp named
    exact ⟨row, isRow, isKey⟩

theorem named_accounts_key (recs : List (IdentityRecord profiles)) (key : Int64) :
    key ∈ (namedAccounts batch recs).map AccountArgs.hkey ↔ ∃ rec ∈ recs, Names key rec := by
  simp only [namedAccounts, List.mem_map, List.mem_filterMap, names_iff batch]
  constructor
  · rintro ⟨account, ⟨rec, listed, found⟩, same⟩
    exact ⟨rec, listed, account, found, same⟩
  · rintro ⟨rec, listed, account, found, same⟩
    exact ⟨account, ⟨rec, listed, found⟩, same⟩

theorem find_named {recs : List (IdentityRecord profiles)} {key : Int64} {account : AccountArgs}
    (found : (namedAccounts batch recs).find? (fun other => decide (other.hkey = key)) =
      some account) :
    ∃ before rec after, recs = before ++ rec :: after ∧
      (∀ earlier ∈ before, ¬ Names key earlier) ∧
      rec.row.bind (accountArgs batch) = some account := by
  induction recs with
  | nil => cases found
  | cons rec recs ih =>
    have step : ¬ Names key rec → (namedAccounts batch recs).find?
        (fun other => decide (other.hkey = key)) = some account →
        ∃ before rec' after, rec :: recs = before ++ rec' :: after ∧
          (∀ earlier ∈ before, ¬ Names key earlier) ∧
          rec'.row.bind (accountArgs batch) = some account := by
      intro unnamed later
      obtain ⟨before, rec', after, split, earlier, named⟩ := ih later
      exact ⟨rec :: before, rec', after, by rw [split, List.cons_append],
        List.forall_mem_cons.mpr ⟨unnamed, earlier⟩, named⟩
    cases named : rec.row.bind (accountArgs batch) with
    | none =>
      have same : namedAccounts batch (rec :: recs) = namedAccounts batch recs :=
        List.filterMap_cons_none named
      rw [same] at found
      refine step (fun names => ?_) found
      obtain ⟨other, isSome, -⟩ := (names_iff batch key rec).mp names
      rw [named] at isSome
      cases isSome
    | some other =>
      have cons : namedAccounts batch (rec :: recs) = other :: namedAccounts batch recs :=
        List.filterMap_cons_some named
      rw [cons] at found
      by_cases same : other.hkey = key
      · rw [List.find?_cons_of_pos (by simpa using same)] at found
        exact ⟨[], rec, recs, rfl, by simp, named.trans found⟩
      · rw [List.find?_cons_of_neg (by simpa using same)] at found
        refine step (fun names => ?_) found
        obtain ⟨one, isSome, isKey⟩ := (names_iff batch key rec).mp names
        rw [named, Option.some_inj] at isSome
        rw [← isSome] at isKey
        exact same isKey

/-- The values of an account are those of the first sync record that names it. -/
def FirstNaming (recs : List (IdentityRecord profiles)) (account : AccountArgs) : Prop :=
  ∃ before rec after, recs = before ++ rec :: after ∧
    (∀ earlier ∈ before, ¬ Names account.hkey earlier) ∧
    rec.row.bind (accountArgs batch) = some account

/-- Every account that a sync record names is listed once, with the values of the first. -/
theorem account_order_first (recs : List (IdentityRecord profiles)) :
    ((accountOrder batch recs).map AccountArgs.hkey).Nodup ∧
      (∀ key, key ∈ (accountOrder batch recs).map AccountArgs.hkey ↔
        ∃ rec ∈ recs, Names key rec) ∧
      ∀ account ∈ accountOrder batch recs, FirstNaming batch recs account := by
  rw [accountOrder, fold_first_seen]
  refine ⟨first_seen_nodup _, fun key => ?_, fun account listed =>
    find_named batch (first_seen_find listed)⟩
  rw [← named_accounts_key batch]
  constructor
  · intro listed
    obtain ⟨account, seen, same⟩ := List.mem_map.mp listed
    exact List.mem_map.mpr ⟨account, mem_of_first_seen seen, same⟩
  · intro listed
    obtain ⟨account, named, rfl⟩ := List.mem_map.mp listed
    exact first_seen_key named

theorem itoa_injective : Function.Injective itoa := fun _ _ same =>
  Int64.toInt_inj.mp (decimal_injective same)

/-- The script gets the records in their order, each with the lists of its own profile, and
every account that a sync record names once, with the values of the first such record. All
texts are exact, and so are the numbers it computes with up to `2 ^ 53`. -/
theorem sync_call_decoded (plan : Fin profiles → Profile) (recs : List (IdentityRecord profiles))
    (baselines : Text) (nowMs : Int64)
    (fits : (identityCallArgs batch plan recs baselines nowMs).length ≤ 2 ^ 53) :
    decodeCall (identityCallArgs batch plan recs baselines nowMs) =
        some { head := decodedHead batch nowMs
               profiles := (profileOrder recs).map fun profile => groupLists (plan profile)
               accounts := (accountOrder batch recs).map decodedAccount
               records := recs.map (decodedRecord plan) } ∧
      (((accountOrder batch recs).map decodedAccount).map DecodedAccount.hkey).Nodup ∧
      (∀ key, key ∈ (accountOrder batch recs).map AccountArgs.hkey ↔
        ∃ rec ∈ recs, Names key rec) ∧
      (∀ account ∈ accountOrder batch recs, FirstNaming batch recs account) ∧
      ∀ value : Int, value.natAbs ≤ 2 ^ 53 → roundDouble value = value := by
  obtain ⟨distinct, named, firsts⟩ := account_order_first batch recs
  have hkeys : (((accountOrder batch recs).map decodedAccount).map DecodedAccount.hkey).Nodup := by
    have texts : ((accountOrder batch recs).map decodedAccount).map DecodedAccount.hkey =
        ((accountOrder batch recs).map AccountArgs.hkey).map itoa := by
      rw [List.map_map, List.map_map]
      rfl
    rw [texts]
    exact distinct.map itoa_injective
  refine ⟨?_, hkeys, named, firsts, fun value small => round_double_exact small⟩
  have pairs : ((profileOrder recs).flatMap fun profile => profileArgs (plan profile)).length =
      2 * (profileOrder recs).length := by
    rw [List.length_flatMap]
    simp [profileArgs, Nat.mul_comm]
  have quintuples : ((accountOrder batch recs).flatMap accountValues).length =
      5 * (accountOrder batch recs).length := by
    rw [List.length_flatMap]
    simp [accountValues, Nat.mul_comm]
  have sizes : (profileOrder recs).length < 2 ^ 53 ∧ (accountOrder batch recs).length ≤ 2 ^ 53 := by
    simp only [identityCallArgs, List.length_append, List.length_cons, pairs, quintuples] at fits
    omega
  obtain ⟨profileSize, accountSize⟩ := sizes
  have listed : ∀ rec ∈ recs, rec.profile ∈ profileOrder recs := by
    intro rec member
    rw [profileOrder, fold_first_seen]
    have listedProfile : rec.profile ∈ recs.map IdentityRecord.profile :=
      List.mem_map_of_mem member
    have seen := @first_seen_key _ _ _ id _ _ listedProfile
    rwa [List.map_id] at seen
  have afterHead : ∀ rest, (headArgs batch baselines nowMs ++ rest).drop 7 = rest :=
    fun rest => rfl
  have records : ∀ fuel, recs.length ≤ fuel →
      readRecords ((profileOrder recs).map fun profile => groupLists (plan profile)) fuel
        (recs.flatMap (recordArgs (profileOrder recs))) = recs.map (decodedRecord plan) :=
    fun fuel enough => read_records_flat recs
      (fun rec member => decode_record_args (listed rec member) profileSize plan) enough
  have enough : recs.length ≤ (recs.flatMap (recordArgs (profileOrder recs))).length := by
    rw [List.length_flatMap]
    simp only [record_args_length, List.map_const', List.sum_replicate_nat, identityRecordValues]
    omega
  have profileTable := fun rest => read_times_written (profileOrder recs)
    (fun profile _ rest => read_profile_args (plan profile) rest) rest
  have accountTable := fun rest => read_times_written (accountOrder batch recs)
    (fun account _ rest => read_account_values account rest) rest
  rw [identityCallArgs, decodeCall, afterHead, read_count_decimal profileSize.le]
  simp only [Option.bind_eq_bind, Option.bind_some, Int.toNat_natCast, profileTable,
    read_count_decimal accountSize, accountTable, decode_head_args, records _ enough]
  rfl

/-- A removal and two records that share a profile and an account. -/
def sharedRecords : List (IdentityRecord 3) :=
  let row := { id := asciiBytes "i1", state := asciiBytes "active", typeName := asciiBytes "t"
               typeVersion := 1, payloadVersion := 2, region := asciiBytes "R"
               banUntil := none, quarantineUntil := none, activatedAt := some 5
               proxyHkey := none, stateChangedAt := 1758011411962, accountHkey := some 9
               accountState := none, accountBanUntil := none, accountCooldownUntil := some 7 }
  [{ row := none, hkey := 4, profile := 2, jitter := 0 },
    { row := some row, hkey := 5, profile := 0, jitter := 3 },
    { row := some { row with accountCooldownUntil := some 8 }, hkey := 6, profile := 2
      jitter := 3 }]

def sharedPlan (profile : Fin 3) : Profile :=
  if profile = 2 then { eligible := [], other := [1, 2] } else { eligible := [1], other := [] }

def mergeBatch : IdentityBatch where
  mode := asciiBytes "m"
  accountMode := []
  resetHealth := false
  resetFailures := false
  coldStart := false
  accountSct _ := 0

theorem shared_records_decoded :
    (decodeCall (identityCallArgs mergeBatch sharedPlan sharedRecords [] 0)).map
        (fun call => (call.profiles, call.accounts, call.records.length)) =
      some ([⟨[], [asciiBytes "1", asciiBytes "2"]⟩, ⟨[asciiBytes "1"], []⟩],
        [⟨asciiBytes "9", asciiBytes "active", asciiBytes "0", 7, 0⟩], 3) := by
  obtain ⟨decoded, -⟩ := sync_call_decoded mergeBatch sharedPlan sharedRecords [] 0
    (by decide +kernel)
  rw [decoded]
  decide +kernel

/-- A change time above `2 ^ 53` reaches the script as the nearest double. -/
theorem late_change_rounded :
    (decodeCall (identityCallArgs mergeBatch sharedPlan
        [{ row := some { id := [], state := asciiBytes "active", typeName := [], typeVersion := 1
                         payloadVersion := 1, region := [], banUntil := none
                         quarantineUntil := none, activatedAt := none, proxyHkey := none
                         stateChangedAt := 9007199254740993, accountHkey := none
                         accountState := none, accountBanUntil := none
                         accountCooldownUntil := none }
           hkey := 5, profile := 0, jitter := 0 }] [] 0)).map DecodedCall.records =
      some [.sync (asciiBytes "5") [] (asciiBytes "active") [] (asciiBytes "1") (asciiBytes "1")
        [] [] (asciiBytes "0") (asciiBytes "0") (asciiBytes "0") [] ⟨[asciiBytes "1"], []⟩ 0
        9007199254740992] := by
  decide +kernel

end Spinneret.HotState.SyncEncoding
