import GpuMarket.ControlPlane.Effects
import Mathlib.Data.Set.Card

namespace GpuMarket

open Lib

section Like

theorem like_cons_percent (p s : List Char) :
    like ('%' :: p) s = true ↔ ∃ t, t <:+ s ∧ like p t = true := by
  simp only [like, if_true, List.any_eq_true, List.mem_tails]

theorem like_cons_nil {c : Char} (hc : c ≠ '%') (p : List Char) : like (c :: p) [] = false := by
  simp only [like, hc, if_false]

theorem like_cons_cons {c : Char} (hc : c ≠ '%') (p : List Char) (d : Char) (s : List Char) :
    like (c :: p) (d :: s) = true ↔
      (decide (c = '_') || c.toLower == d.toLower) = true ∧ like p s = true := by
  simp only [like, hc, if_false, Bool.and_eq_true]

theorem like_append (p q s : List Char) :
    like (p ++ q) s = true ↔ ∃ s₁ s₂, s = s₁ ++ s₂ ∧ like p s₁ = true ∧ like q s₂ = true := by
  induction p generalizing s with
  | nil =>
    constructor
    · exact fun h => ⟨[], s, rfl, rfl, h⟩
    · rintro ⟨s₁, s₂, rfl, h₁, h₂⟩
      rw [List.isEmpty_iff.mp h₁]
      exact h₂
  | cons c p ih =>
    by_cases hc : c = '%'
    · subst hc
      rw [List.cons_append, like_cons_percent]
      constructor
      · rintro ⟨t, ⟨u, rfl⟩, ht⟩
        obtain ⟨s₁, s₂, rfl, h₁, h₂⟩ := (ih t).mp ht
        exact ⟨u ++ s₁, s₂, (List.append_assoc ..).symm,
          (like_cons_percent p _).mpr ⟨s₁, List.suffix_append u s₁, h₁⟩, h₂⟩
      · rintro ⟨s₁, s₂, rfl, h₁, h₂⟩
        obtain ⟨t, ⟨u, rfl⟩, ht⟩ := (like_cons_percent p s₁).mp h₁
        exact ⟨t ++ s₂, ⟨u, (List.append_assoc ..).symm⟩, (ih _).mpr ⟨t, s₂, rfl, ht, h₂⟩⟩
    · cases s with
      | nil =>
        rw [List.cons_append, like_cons_nil hc]
        refine ⟨nofun, ?_⟩
        rintro ⟨s₁, s₂, hs, h₁, -⟩
        rw [(List.append_eq_nil_iff.mp hs.symm).1, like_cons_nil hc] at h₁
        exact h₁
      | cons d s =>
        rw [List.cons_append, like_cons_cons hc, ih]
        constructor
        · rintro ⟨hd, s₁, s₂, rfl, h₁, h₂⟩
          exact ⟨d :: s₁, s₂, rfl, (like_cons_cons hc ..).mpr ⟨hd, h₁⟩, h₂⟩
        · rintro ⟨s₁, s₂, hs, h₁, h₂⟩
          cases s₁ with
          | nil =>
            rw [like_cons_nil hc] at h₁
            cases h₁
          | cons d' s₁ =>
            cases hs
            obtain ⟨hd, h₁⟩ := (like_cons_cons hc ..).mp h₁
            exact ⟨hd, s₁, s₂, rfl, h₁, h₂⟩

theorem like_percent (s : List Char) : like ['%'] s = true :=
  (like_cons_percent [] s).mpr ⟨[], List.nil_suffix, rfl⟩

theorem like_contains (name s : List Char) :
    like ('%' :: (name ++ ['%'])) s = true ↔ ∃ t, t <:+: s ∧ like name t = true := by
  rw [like_cons_percent]
  constructor
  · rintro ⟨u, hu, h⟩
    obtain ⟨t, rest, rfl, ht, -⟩ := (like_append name ['%'] u).mp h
    exact ⟨t, (List.prefix_append t rest).isInfix.trans hu.isInfix, ht⟩
  · rintro ⟨t, ⟨pre, post, rfl⟩, ht⟩
    refine ⟨t ++ post, ⟨pre, (List.append_assoc ..).symm⟩, ?_⟩
    exact (like_append name ['%'] _).mpr ⟨t, post, rfl, ht, like_percent post⟩

end Like

/-! The market as a tenant sees it: what passes the filters, what could be rented, what comes
first. -/

def OffersQuery.Matches (q : OffersQuery) (m : MachineRow) : Prop :=
  (∀ name, q.gpuName = some name →
    ∃ part, part <:+: m.gpuName.toList ∧ like name.toList part = true) ∧
  (∀ v, q.minVramMb = some v → v ≤ m.vramMb) ∧
  (∀ c, q.minGpuCount = some c → c ≤ m.gpuCount) ∧
  ∀ r, q.maxRateSatsPerMin = some r → m.rateSatsPerMin ≤ r

/-- Renting the machine succeeds with any key that is not blank, for any account that holds the
machine's rate, be it one of the state's own or another. -/
def Db.Rentable (env : Env) (db : Db) (m : MachineRow) : Prop :=
  ∀ (accounts : Table AccountRow.id), ∀ a ∈ accounts.rows, m.rateSatsPerMin ≤ a.balanceSats →
    ∀ (image key : String) (now : Int), trim key ≠ "" →
      ∃ r, createRentalTx env ⟨m.id, a.id, image, some key⟩ now { db with accounts } = .ok r

def Db.market (env : Env) (q : OffersQuery) (db : Db) : Set MachineRow :=
  {m | m ∈ db.machines.rows ∧ q.Matches m ∧ db.Rentable env m}

/-- The query sorts `m` strictly before `m'`. -/
def OffersQuery.Before (q : OffersQuery) (m m' : MachineRow) : Prop :=
  match q.sort with
  | some "rate" => m.rateSatsPerMin < m'.rateSatsPerMin
  | some "dlperf" => m'.dlperf < m.dlperf
  | _ => (m.rateSatsPerMin : ℚ) / max m.dlperf (1 / 100) <
      (m'.rateSatsPerMin : ℚ) / max m'.dlperf (1 / 100)

theorem OffersQuery.accepts_iff (q : OffersQuery) (m : MachineRow) :
    q.accepts m = true ↔ q.Matches m := by
  have hname : ∀ name : String, like ("%" ++ name ++ "%").toList m.gpuName.toList = true ↔
      ∃ part, part <:+: m.gpuName.toList ∧ like name.toList part = true := by
    intro name
    rw [← like_contains, String.toList_append, String.toList_append]
    rfl
  simp only [accepts, Matches, Bool.and_eq_true, Option.all_eq_true, decide_eq_true_eq, hname,
    and_assoc]

theorem OffersQuery.before_iff (q : OffersQuery) (m m' : MachineRow) :
    q.Before m m' ↔ q.sortKey m < q.sortKey m' := by
  unfold Before sortKey
  split
  case h_1 hsort =>
    rw [if_pos hsort, if_pos hsort]
    exact Rat.intCast_lt_intCast.symm
  case h_2 hsort =>
    have hrate : q.sort ≠ some "rate" := by simp [hsort]
    rw [if_neg hrate, if_pos hsort, if_neg hrate, if_pos hsort]
    exact neg_lt_neg_iff.symm
  case h_3 hrate hperf =>
    rw [if_neg hrate, if_neg hperf, if_neg hrate, if_neg hperf]

theorem sshKey_of_some {machineId : Int} {accountId image key : String} (h : trim key ≠ "") :
    sshKey ⟨machineId, accountId, image, some key⟩ = .ok (trim key) := by
  simp only [sshKey, Option.map_some, ne_eq, h, not_false_eq_true, if_true]

theorem createRentalTx_of_open {env : Env} {db : Db} {m : MachineRow} {a : AccountRow}
    (hm : m ∈ db.machines.rows) (ha : a ∈ db.accounts.rows) (honline : m.online = true)
    (hfree : ¬occupied db m.id) (hrate : m.rateSatsPerMin ≤ a.balanceSats)
    {req : CreateRentalRequest} (hmid : req.machineId = m.id) (haid : req.accountId = a.id)
    {key : String} (hkey : sshKey req = .ok key) (now : Int) :
    ∃ r, createRentalTx env req now db = .ok r := by
  have hmachine : findMachine db req.machineId = .ok m := by
    simp only [findMachine, hmid, Table.find?_of_mem hm]
  have haccount : findAccount db req.accountId = .ok a := by
    simp only [findAccount, haid, Table.find?_of_mem ha]
  have hrefs : db.machines.Has req.machineId ∧ db.accounts.Has req.accountId :=
    ⟨⟨m, hm, hmid.symm⟩, ⟨a, ha, haid.symm⟩⟩
  have hinsert : db.insertRental req.machineId req.accountId req.image key m.rateSatsPerMin now =
      .ok (db.rentals.nextId,
        db.withRental req.machineId req.accountId req.image key m.rateSatsPerMin now) :=
    Db.insertRental_ok.mpr ⟨hrefs, rfl⟩
  simp only [createRentalTx, hmachine, haccount, hkey, ok_bind, honline, hmid ▸ hfree,
    not_lt.mpr hrate, not_true_eq_false, if_false]
  exact ⟨_, bind_eq_ok.mpr ⟨_, sql_eq_ok.mpr hinsert,
    bind_eq_ok.mpr ⟨_, sql_eq_ok.mpr (Db.insertCommand_ok.mpr ⟨hrefs.1, rfl⟩), rfl⟩⟩⟩

/-- The two conditions are the same: the index's sub-query, and the checks of a creation. -/
theorem Db.rentable_iff (env : Env) {db : Db} {m : MachineRow} (hm : m ∈ db.machines.rows) :
    db.Rentable env m ↔ m.online = true ∧ ¬occupied db m.id := by
  constructor
  · intro h
    let funded : AccountRow := { id := "", balanceSats := m.rateSatsPerMin, createdAt := 0 }
    obtain ⟨⟨db', v⟩, hx⟩ := h (Table.empty.insert funded (by simp [Table.Has])) funded (by simp)
      le_rfl "" "k" 0 (by decide)
    obtain ⟨m', hm', hid, -, -, -, honline, hfree, -⟩ := createRentalTx_ok hx
    rw [Table.eq_of_key_eq (t := db.machines) hm' hm hid] at honline
    exact ⟨honline, hfree⟩
  · rintro ⟨honline, hfree⟩ accounts a ha hrate image key now hkey
    exact @createRentalTx_of_open env { db with accounts } m a hm ha honline hfree hrate _ rfl rfl
      _ (sshKey_of_some hkey) now

/-- For each account of the state that holds the rate, the market is where its rentals succeed. -/
theorem Db.mem_market_iff (env : Env) {db : Db} (q : OffersQuery) {m : MachineRow}
    (hm : m ∈ db.machines.rows) {a : AccountRow} (ha : a ∈ db.accounts.rows)
    (hrate : m.rateSatsPerMin ≤ a.balanceSats) (image : String) {key : String}
    (hkey : trim key ≠ "") (now : Int) :
    m ∈ db.market env q ↔ q.Matches m ∧
      ∃ r, createRentalTx env ⟨m.id, a.id, image, some key⟩ now db = .ok r := by
  constructor
  · exact fun ⟨_, hmatch, hrent⟩ => ⟨hmatch, hrent db.accounts a ha hrate image key now hkey⟩
  · rintro ⟨hmatch, ⟨db', v⟩, hx⟩
    obtain ⟨m', hm', hid, -, -, -, honline, hfree, -⟩ := createRentalTx_ok hx
    rw [Table.eq_of_key_eq (t := db.machines) hm' hm hid] at honline
    exact ⟨hm, hmatch, (db.rentable_iff env hm).mpr ⟨honline, hfree⟩⟩

def idle (q : OffersQuery) (db : Db) : List MachineRow :=
  db.machines.rows.filter fun m => m.online ∧ ¬occupied db m.id ∧ q.accepts m

theorem Db.mem_market (env : Env) (q : OffersQuery) {db : Db} {m : MachineRow} :
    m ∈ db.market env q ↔ m ∈ idle q db := by
  rw [idle, List.mem_filter, decide_eq_true_eq, q.accepts_iff]
  refine and_congr_right fun hm => ?_
  rw [db.rentable_iff env hm]
  tauto

def listed (q : OffersQuery) (db : Db) : List MachineRow :=
  Table.limit (fun a b => q.sortKey a ≤ q.sortKey b) q.limitOrDefault (idle q db)

theorem offers_eq (q : OffersQuery) (db : Db) :
    offers q db = .offers ((listed q db).map machineToOffer) := rfl

theorem machineToOffer_shows (machines : List MachineRow) :
    (machines.map machineToOffer).map (fun o => (o.machineId, o.rateSatsPerMin, o.dlperf)) =
      machines.map fun m => (m.id, m.rateSatsPerMin, m.dlperf) := by
  rw [List.map_map]
  rfl

/-- The market is where rentals succeed, whichever funded account is tried. The offer index shows its
machines in the order of the query, each at most once, and as many as the limit allows; what it
leaves out would come no earlier. -/
theorem offers_agree_with_rentals (env : Env) (q : OffersQuery) (db : Db) :
    (∀ m ∈ db.machines.rows, ∀ a ∈ db.accounts.rows, m.rateSatsPerMin ≤ a.balanceSats →
      ∀ (image key : String) (now : Int), trim key ≠ "" →
        (m ∈ db.market env q ↔ q.Matches m ∧
          ∃ r, createRentalTx env ⟨m.id, a.id, image, some key⟩ now db = .ok r)) ∧
    ∃ machines : List MachineRow, offers q db = .offers (machines.map machineToOffer) ∧
      (machines.map machineToOffer).map (fun o => (o.machineId, o.rateSatsPerMin, o.dlperf)) =
        machines.map (fun m => (m.id, m.rateSatsPerMin, m.dlperf)) ∧
      (machines.map (·.id)).Nodup ∧ (∀ m ∈ machines, m ∈ db.market env q) ∧
      machines.Pairwise (fun m m' => ¬q.Before m' m) ∧
      machines.length =
        min (db.market env q).ncard (max 1 (min (q.limit.getD 200) 200)).toNat ∧
      ∀ m ∈ db.market env q, m ∉ machines → ∀ m' ∈ machines, ¬q.Before m m' := by
  have hnodup : ((idle q db).map (·.id)).Nodup :=
    db.machines.nodup.sublist (List.filter_sublist.map _)
  have hcard : (db.market env q).ncard = (idle q db).length := by
    rw [← List.toFinset_card_of_nodup hnodup.of_map, ← Set.ncard_coe_finset]
    congr 1
    ext m
    rw [Db.mem_market, Finset.mem_coe, List.mem_toFinset]
  refine ⟨fun m hm a ha hrate image key now hkey =>
    Db.mem_market_iff env q hm ha hrate image hkey now,
    listed q db, offers_eq q db, machineToOffer_shows _, Table.nodup_limit hnodup, ?_, ?_, ?_, ?_⟩
  · exact fun m hm => (Db.mem_market env q).mpr (Table.mem_of_limit hm)
  · exact Table.pairwise_limit.imp fun h hbefore => not_lt.mpr h ((q.before_iff _ _).mp hbefore)
  · rw [hcard]
    exact Table.length_limit
  · intro m hm hcut m' hm' hbefore
    have hle : q.sortKey m' ≤ q.sortKey m :=
      Table.limit_before (r := fun a b => q.sortKey a ≤ q.sortKey b) hm'
        ((Db.mem_market env q).mp hm) hcut
    exact not_lt.mpr hle ((q.before_iff m m').mp hbefore)

end GpuMarket
