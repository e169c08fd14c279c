import TensorCash.Assets.Frame
import Mathlib.Data.List.Nodup

/-! A block credits an entry's fees, takes one registration and settles the supply, at most. -/

namespace TensorCash

open Checked

variable {pending : List PendingIssuerReg} {now prev : Option AssetRegistryEntry}
  {p : PendingIssuerReg}

structure RegistersAs (ctx : BlockContext) (tx : CTransaction) (coins : List Coin)
    (p : PendingIssuerReg) (prev : Option AssetRegistryEntry) (new : AssetRegistryEntry) : Prop where
  terms : checkRegTerms p.reg p.out.nValue = .ok ⟨⟩
  history : checkRegHistory ctx tx coins prev p.reg = .ok ⟨⟩
  entry : ∃ ticker decimals, new = newEntry ctx tx p prev ticker decimals

theorem newEntry_eq (ctx : BlockContext) (tx : CTransaction) (p : PendingIssuerReg)
    (prev : Option AssetRegistryEntry) (ticker : Bytes) (decimals : UInt8) :
    ∃ has_kyc zk_vk_commitment max_root_age tfr_flags compliance_root_commit
      compliance_root_history compliance_root_history_vk active_root_activation_height,
      newEntry ctx tx p prev ticker decimals =
        { registeredEntry ctx (tx.txid ctx.env.crypto) p prev ticker decimals with
          has_kyc, zk_vk_commitment, max_root_age, tfr_flags, compliance_root_commit,
          compliance_root_history, compliance_root_history_vk, active_root_activation_height } := by
  unfold newEntry withCompliance applyComplianceRootUpdate
  dsimp only
  split_ifs <;> exact ⟨_, _, _, _, _, _, _, _, rfl⟩

structure SamePolicies (pass pass' : RegistryPass) : Prop where
  policies : pass'.view.policies = pass.view.policies
  reg_undo : pass'.undo.reg_undo = pass.undo.reg_undo

theorem collected_same {ctx : BlockContext} {tx : CTransaction} {spent : List (Uint256 × Int)}
    {pass collected published : RegistryPass}
    (collects : tx.vout.foldlM (collectExtension ctx.env.crypto tx) pass = .ok collected)
    (publishes : publishScalars ctx spent collected tx.vout = .ok published) :
    collected.view.policies = pass.view.policies ∧ SamePolicies pass published ∧
      published.view.tickers = pass.view.tickers := by
  obtain ⟨_, _, _, rfl⟩ := collectExtensions_collects _ _ collects
  obtain ⟨_, _, _, rfl⟩ := publishScalars_publishes _ _ publishes
  exact ⟨rfl, ⟨rfl, rfl⟩, rfl⟩

theorem bindTicker_policies (prev : Option AssetRegistryEntry) (reg : IssuerReg) (view : CCoinsView) :
    (bindTicker prev reg view).policies = view.policies := by
  obtain ⟨_, bound⟩ := bindTicker_eq prev reg view
  rw [bound]

theorem RegistryPass.noted_policies (pass : RegistryPass) (reg : IssuerReg) :
    (pass.noted reg).view.policies = pass.view.policies := bindTicker_policies _ _ _

section Registration

variable {ctx : BlockContext} {tx : CTransaction} {coins : List Coin}
  {spent : List (Uint256 × Int)} {pass pass' : RegistryPass}

theorem registerAsset_eq_ok (registered : registerAsset ctx tx coins spent pass p = .ok pass') :
    ∃ new, RegistersAs ctx tx coins p (pass.view.policies.get? p.reg.asset_id) new ∧
      pass'.view.policies = pass.view.policies.insert p.reg.asset_id new ∧
      pass'.undo.reg_undo =
        pass.undo.reg_undo ++
          [RegUndoEntry.mk p.reg.asset_id (pass.view.policies.get? p.reg.asset_id)] := by
  obtain ⟨ticker, _, decimals, _, _, terms, _, _, keyed, texted, history, rfl⟩ := registerAsset_steps registered
  obtain ⟨_, _, _, _, rfl⟩ := installRegVk_installs _ _ keyed
  obtain ⟨_, _, _, _, rfl⟩ := installRegIcu_installs _ _ _ texted
  refine ⟨newEntry ctx tx p _ ticker decimals, ⟨terms, history, ticker, decimals, rfl⟩, ?_, rfl⟩
  show (pass.noted p.reg).view.policies.insert _ _ = _
  rw [pass.noted_policies]

theorem registerAssets_eq_ok {ps : List PendingIssuerReg} (distinct : (ps.map fun p => p.reg.asset_id).Nodup)
    (registered : ps.foldlM (registerAsset ctx tx coins spent) pass = .ok pass') :
    (∀ id, id ∉ ps.map (fun p => p.reg.asset_id) → pass'.view.policies.get? id = pass.view.policies.get? id) ∧
    ∀ p ∈ ps, ∃ new, RegistersAs ctx tx coins p (pass.view.policies.get? p.reg.asset_id) new ∧
      pass'.view.policies.get? p.reg.asset_id = some new := by
  induction ps generalizing pass with
  | nil =>
    cases registered
    exact ⟨fun _ _ => rfl, fun p member => by cases member⟩
  | cons first rest ih =>
    rw [List.foldlM_cons] at registered
    obtain ⟨mid, stepped, registered⟩ := bind_eq_ok.mp registered
    rw [List.map_cons, List.nodup_cons] at distinct
    obtain ⟨new, accepted, policies, _⟩ := registerAsset_eq_ok stepped
    obtain ⟨others, each⟩ := ih distinct.2 registered
    -- The first step writes under its own id, which none of the later ones has.
    have frame : ∀ id, id ≠ first.reg.asset_id → mid.view.policies.get? id = pass.view.policies.get? id := by
      intro id differ
      rw [policies, OrdMap.get?_insert_of_ne _ _ _ differ]
    refine ⟨fun id absent => ?_, fun p member => ?_⟩
    · rw [List.map_cons, List.mem_cons, not_or] at absent
      rw [others id absent.2, frame id absent.1]
    · rcases List.mem_cons.mp member with rfl | later
      · refine ⟨new, accepted, ?_⟩
        rw [others _ distinct.1, policies, OrdMap.get?_insert_self]
      · obtain ⟨new', accepted', stored⟩ := each p later
        have differ : p.reg.asset_id ≠ first.reg.asset_id := by
          intro same
          exact distinct.1 (same ▸ List.mem_map_of_mem later)
        rw [frame _ differ] at accepted'
        exact ⟨new', accepted', stored⟩

end Registration

def BondKept (cur : AssetRegistryEntry) (bond new_bond : Int) : Prop :=
  if cur.isUnlocked then DUST_THRESHOLD ≤ new_bond
  else (if cur.rotation_min_sats ≠ 0 then cur.rotation_min_sats.toBitVec.toInt else bond) ≤ new_bond

structure AssetTxAccepted (ctx : BlockContext) (policies : OrdMap Uint256 AssetRegistryEntry)
    (tx : CTransaction) (coins : List Coin) (policies' : OrdMap Uint256 AssetRegistryEntry) : Prop where
  renewed : ∀ p ∈ pendingRegs tx, ∀ cur, policies.get? p.reg.asset_id = some cur →
    ∃ i ∈ tx.vin, i.prevout = cur.icu_outpoint
  replaced : ∀ i coin reg cur, (i, coin) ∈ tx.vin.zip coins →
    parseIssuerReg coin.out.vExt = some reg → policies.get? reg.asset_id = some cur →
      cur.icu_outpoint = i.prevout → ∃ p, pendingOf (pendingRegs tx) reg.asset_id = [p] ∧
        BondKept cur coin.out.nValue.toInt p.out.nValue.toInt
  kept : ∀ id, id ∉ (pendingRegs tx).map (fun p => p.reg.asset_id) → policies'.get? id = policies.get? id
  registered : ∀ id, id ∈ (pendingRegs tx).map (fun p => p.reg.asset_id) →
    ∃ p new, (pendingOf (pendingRegs tx) id).getLast? = some p ∧
      RegistersAs ctx tx coins p (policies.get? id) new ∧ policies'.get? id = some new

section Transaction

variable {ctx : BlockContext} {tx : CTransaction} {coins : List Coin} {pass pass' : RegistryPass}
  {id : Uint256} {p : PendingIssuerReg}

theorem mem_pendingOf : p ∈ pendingOf pending id ↔ p ∈ pending ∧ p.reg.asset_id = id := by
  simp [pendingOf]

theorem asset_id_of_getLast? (last : (pendingOf pending id).getLast? = some p) :
    p ∈ pending ∧ p.reg.asset_id = id :=
  mem_pendingOf.mp (List.mem_of_getLast? last)

theorem nodup_lastRegs (pending : List PendingIssuerReg) {ids : List Uint256} (distinct : ids.Nodup) :
    ((ids.filterMap fun id => (pendingOf pending id).getLast?).map
      fun p => p.reg.asset_id).Nodup := by
  rw [List.map_filterMap]
  refine distinct.filterMap fun a b named left right => ?_
  -- Both were found under their own id.
  simp only [Option.mem_def, Option.map_eq_some_iff] at left right
  obtain ⟨p, first, rfl⟩ := left
  obtain ⟨q, second, same⟩ := right
  rw [← (asset_id_of_getLast? first).2, ← same, (asset_id_of_getLast? second).2]

theorem checkBond_eq_ok {view : CCoinsView} {bond : Int}
    {cur : AssetRegistryEntry} (known : view.policies.get? id = some cur)
    (checked : checkBond view pending (id, bond) = .ok ⟨⟩) :
    ∃ p, pendingOf pending id = [p] ∧ BondKept cur bond p.out.nValue.toInt := by
  simp only [checkBond, known] at checked
  unfold BondKept
  split at checked
  · next new alone =>
    refine ⟨new, alone, ?_⟩
    split_ifs at checked ⊢ <;> exact require_eq_ok.mp checked
  · cases checked

theorem connectAssetTx_accepted (connected : connectAssetTx ctx pass (tx, coins) = .ok pass') :
    AssetTxAccepted ctx pass.view.policies tx coins pass'.view.policies := by
  obtain ⟨pass₁, pass₂, collected, _, published, renewed, replaced, connected⟩ := connectAssetTx_eq_ok connected
  -- Up to the registrations the entries are those that the transaction found.
  obtain ⟨first, ⟨second, _⟩, _⟩ := collected_same collected published
  obtain ⟨others, each⟩ := registerAssets_eq_ok
    (nodup_lastRegs (pendingRegs tx) (nodup_sortedIds _)) connected
  rw [second] at others each
  rw [forM_eq_ok] at renewed replaced
  refine ⟨fun p member cur known => ?_, fun i coin reg cur spent carried known current => ?_,
    fun id absent => ?_, fun id present => ?_⟩
  · have asked := renewed p.reg.asset_id (mem_sortedIds.mpr (List.mem_map_of_mem member))
    simp only [checkReregistration, second, known, require_eq_ok, Option.all_some] at asked
    simpa using asked
  · -- The credential is listed with its bond, so its successor has been asked for.
    have listed : (reg.asset_id, coin.out.nValue.toInt) ∈ icuSpent pass₁.view (tx.vin.zip coins) := by
      refine List.mem_filterMap.mpr ⟨(i, coin), spent, ?_⟩
      simp [carried, first, known, current]
    have asked := replaced _ ((List.mem_insertionSort _).mpr listed)
    exact checkBond_eq_ok (second ▸ known) asked
  · refine others id fun inside => absent ?_
    obtain ⟨p, found, rfl⟩ := List.mem_map.mp inside
    obtain ⟨id', _, last⟩ := List.mem_filterMap.mp found
    exact List.mem_map_of_mem (asset_id_of_getLast? last).1
  · -- An asset with a registration has a last one.
    obtain ⟨q, member, named⟩ := List.mem_map.mp present
    obtain ⟨p, last⟩ : ∃ p, (pendingOf (pendingRegs tx) id).getLast? = some p := by
      refine Option.isSome_iff_exists.mp (List.getLast?_isSome.mpr ?_)
      exact List.ne_nil_of_mem (mem_pendingOf.mpr ⟨member, named⟩)
    obtain ⟨new, accepted, stored⟩ := each p
      (List.mem_filterMap.mpr ⟨id, mem_sortedIds.mpr present, last⟩)
    rw [(asset_id_of_getLast? last).2] at accepted stored
    exact ⟨p, new, last, accepted, stored⟩

end Transaction

def AssetRegistryEntry.credit (fees : List FeeUndoEntry) (id : Uint256) (e : AssetRegistryEntry) :
    AssetRegistryEntry :=
  { e with fees_accum_sats := e.fees_accum_sats + feeAdd fees id }

def AssetRegistryEntry.settle (delta : Int64) (e : AssetRegistryEntry) : AssetRegistryEntry :=
  if 0 < delta then { e with issued_total := e.issued_total + delta.toUInt64 }
  else if delta < 0 then { e with burned_total := e.burned_total + (-delta).toUInt64 }
  else e

def CapKept (delta : Int64) (e : AssetRegistryEntry) : Prop :=
  ¬ (0 < e.issuance_cap_units ∧ 0 < delta ∧ e.issuance_cap_units < e.issued_total + delta.toUInt64)

def registeredIds (txs : List (CTransaction × List Coin)) : List Uint256 :=
  txs.flatMap fun t => (pendingRegs t.1).map fun p => p.reg.asset_id

/-- A block's transactions leave an entry as it is, or one of them registers the asset. -/
inductive Staged (ctx : BlockContext) (txs : List (CTransaction × List Coin)) (id : Uint256)
    (prev : Option AssetRegistryEntry) : Option AssetRegistryEntry → Prop where
  | kept (silent : id ∉ registeredIds txs) : Staged ctx txs id prev prev
  | registered {tx : CTransaction} {coins : List Coin} {p : PendingIssuerReg}
      {new : AssetRegistryEntry} (member : (tx, coins) ∈ txs) (listed : p ∈ pendingRegs tx)
      (named : p.reg.asset_id = id) (accepted : RegistersAs ctx tx coins p prev new) : Staged ctx txs id prev (some new)

section Block

variable {ctx : BlockContext} {txs : List (CTransaction × List Coin)} {view view' : CCoinsView}
  {undo undo' : CBlockUndo} {pass pass' : RegistryPass} {id : Uint256}

theorem feeAdd_eq_zero {fees : List FeeUndoEntry} (absent : id ∉ fees.map FeeUndoEntry.asset_id) :
    feeAdd fees id = 0 := by
  have none : fees.filter (fun f => f.asset_id = id) = [] := by
    rw [List.filter_eq_nil_iff]
    intro f member
    simp only [decide_eq_true_eq]
    rintro rfl
    exact absent (List.mem_map_of_mem member)
  rw [feeAdd, none]
  rfl

theorem creditFees_get? (fees : List FeeUndoEntry) (view : CCoinsView) (id : Uint256) :
    (creditFees fees view).policies.get? id =
      (view.policies.get? id).map (AssetRegistryEntry.credit fees id) := by
  -- The loop writes under each id once, so a lookup sees the step of its own id only.
  have modify := OrdMap.get?_foldl_modify (AssetRegistryEntry.credit fees)
    (nodup_sortedIds (fees.map FeeUndoEntry.asset_id)) view.policies id
  refine Eq.trans ?_ (modify.trans ?_)
  · simp only [creditFees]
    congr 2
    funext policies k
    cases policies.get? k <;> rfl
  split_ifs with credited
  · rfl
  · rw [mem_sortedIds] at credited
    have nothing : AssetRegistryEntry.credit fees id = fun e => e := by
      funext e
      simp [AssetRegistryEntry.credit, feeAdd_eq_zero credited]
    simp [nothing]

theorem registeredIds_append (txs more : List (CTransaction × List Coin)) :
    registeredIds (txs ++ more) = registeredIds txs ++ registeredIds more := List.flatMap_append

theorem registeredIds_singleton (tx : CTransaction) (coins : List Coin) :
    registeredIds [(tx, coins)] = (pendingRegs tx).map fun p => p.reg.asset_id := by
  simp [registeredIds]

theorem Staged.eq_of_silent (staged : Staged ctx txs id prev now)
    (silent : id ∉ registeredIds txs) : now = prev := by
  cases staged with
  | kept => rfl
  | registered member listed named _ =>
    exact absurd (List.mem_flatMap.mpr ⟨_, member, named ▸ List.mem_map_of_mem listed⟩) silent

theorem Staged.extend {more : List (CTransaction × List Coin)}
    (staged : Staged ctx txs id prev now) (silent : id ∉ registeredIds more) :
    Staged ctx (txs ++ more) id prev now := by
  cases staged with
  | kept before =>
    refine .kept ?_
    rw [registeredIds_append, List.mem_append]
    exact not_or.mpr ⟨before, silent⟩
  | registered member listed named accepted => exact .registered (List.mem_append_left _ member) listed named accepted

theorem registration_unique {t t' : CTransaction × List Coin} {p' : PendingIssuerReg}
    (limit : (registeredIds txs).Nodup) (member : t ∈ txs) (member' : t' ∈ txs)
    (listed : p ∈ pendingRegs t.1) (listed' : p' ∈ pendingRegs t'.1)
    (same : p.reg.asset_id = p'.reg.asset_id) : t = t' ∧ p = p' := by
  obtain ⟨each, apart⟩ := List.nodup_flatMap.mp limit
  -- Two transactions would share the id; within one the ids are distinct as well.
  have transaction : t = t' := by
    by_contra differ
    have : Std.Symm (Function.onFun List.Disjoint fun t : CTransaction × List Coin =>
        (pendingRegs t.1).map fun p => p.reg.asset_id) := ⟨fun _ _ d => List.Disjoint.symm d⟩
    have disjoint := apart.forall member member' differ
    exact disjoint (List.mem_map_of_mem listed) (same ▸ List.mem_map_of_mem listed')
  subst transaction
  exact ⟨rfl, List.inj_on_of_nodup_map (each t member) listed listed' same⟩

theorem Staged.of_registration {tx : CTransaction} {coins : List Coin} (staged : Staged ctx txs id prev now)
    (limit : (registeredIds txs).Nodup) (member : (tx, coins) ∈ txs) (listed : p ∈ pendingRegs tx)
    (named : p.reg.asset_id = id) : ∃ new, RegistersAs ctx tx coins p prev new ∧ now = some new := by
  cases staged with
  | kept silent => exact absurd (List.mem_flatMap.mpr ⟨_, member, named ▸ List.mem_map_of_mem listed⟩) silent
  | @registered tx' coins' p' new member' listed' named' accepted =>
    obtain ⟨same, rfl⟩ := registration_unique limit member member' listed listed'
      (named.trans named'.symm)
    cases same
    exact ⟨new, accepted, rfl⟩

theorem connectAssetTxs_staged (limit : (registeredIds txs).Nodup)
    (connected : txs.foldlM (connectAssetTx ctx) pass = .ok pass') (id : Uint256) :
    Staged ctx txs id (pass.view.policies.get? id) (pass'.view.policies.get? id) := by
  refine foldlM_induction (P := fun done now =>
    Staged ctx done id (pass.view.policies.get? id) (now.view.policies.get? id)) ?_ connected
    (.kept (by simp [registeredIds]))
  rintro done ⟨tx, coins⟩ rest now next split staged stepped
  have accepted := connectAssetTx_accepted stepped
  by_cases own : id ∈ (pendingRegs tx).map fun p => p.reg.asset_id
  · obtain ⟨p, new, last, registers, stored⟩ := accepted.registered id own
    obtain ⟨listed, named⟩ := asset_id_of_getLast? last
    -- No earlier transaction has registered the asset, so this one found the entry of the start.
    have first : id ∉ registeredIds done := by
      intro before
      rw [split, registeredIds_append, List.nodup_append] at limit
      refine limit.2.2 id before id ?_ rfl
      exact List.mem_flatMap.mpr ⟨_, List.mem_cons_self, own⟩
    rw [staged.eq_of_silent first] at registers
    rw [stored]
    exact .registered (by simp) listed named registers
  · rw [accepted.kept id own]
    exact staged.extend (by rwa [registeredIds_singleton])

theorem supplyDelta_eq_zero (still : id ∉ movedAssets txs) : supplyDelta txs id = 0 := by
  unfold movedAssets at still
  rw [mem_sortedIds, List.mem_flatMap] at still
  have zeros : (txs.map fun t => assetDelta (t.2.map Coin.out) t.1.vout id) = txs.map fun _ => (0 : Int) := by
    refine List.map_congr_left fun t member => assetDelta_eq_zero fun moved => ?_
    exact still ⟨t, member, moved⟩
  have sum : (txs.map fun t => assetDelta (t.2.map Coin.out) t.1.vout id).sum = 0 := by
    rw [zeros]
    simp
  show Int64.ofInt (txs.map fun t => assetDelta (t.2.map Coin.out) t.1.vout id).sum = 0
  rw [sum]
  rfl

theorem AssetRegistryEntry.settle_zero (e : AssetRegistryEntry) : e.settle 0 = e := rfl

theorem settleSupply_eq_ok (settled : settleSupply txs pass id = .ok pass') (j : Uint256) : pass'.view.policies.get? j =
        (if j = id then (pass.view.policies.get? j).map (AssetRegistryEntry.settle (supplyDelta txs j))
        else pass.view.policies.get? j) ∧
      ∀ e, pass.view.policies.get? id = some e → CapKept (supplyDelta txs id) e := by
  unfold settleSupply at settled
  cases known : pass.view.policies.get? id with
  | none =>
    rw [known] at settled
    cases settled
    refine ⟨?_, by simp⟩
    split_ifs with own
    · rw [own, known]
      rfl
    · rfl
  | some e =>
    rw [known] at settled
    obtain ⟨_, cap, settled⟩ := bind_eq_ok.mp settled
    cases settled
    refine ⟨?_, fun e' same => ?_⟩
    · rw [OrdMap.get?_insert]
      by_cases own : j = id
      · rw [if_pos own, if_pos own, own, known]
        rfl
      · rw [if_neg own, if_neg own]
    · cases same
      unfold CapKept
      exact require_eq_ok.mp cap

theorem settleSupplies_eq_ok
    (settled : (movedAssets txs).foldlM (settleSupply txs) pass = .ok pass') (id : Uint256) :
    pass'.view.policies.get? id = (pass.view.policies.get? id).map (AssetRegistryEntry.settle (supplyDelta txs id)) ∧
      ∀ e, pass.view.policies.get? id = some e → CapKept (supplyDelta txs id) e := by
  have loop : ∀ (ids : List Uint256) (pass : RegistryPass), ids.Nodup →
      ids.foldlM (settleSupply txs) pass = .ok pass' → if id ∈ ids then
        pass'.view.policies.get? id =
            (pass.view.policies.get? id).map (AssetRegistryEntry.settle (supplyDelta txs id)) ∧
          ∀ e, pass.view.policies.get? id = some e → CapKept (supplyDelta txs id) e
      else pass'.view.policies.get? id = pass.view.policies.get? id := by
    intro ids
    induction ids with
    | nil =>
      intro pass _ run
      cases run
      simp
    | cons first rest ih =>
      intro pass distinct run
      rw [List.nodup_cons] at distinct
      rw [List.foldlM_cons] at run
      obtain ⟨mid, stepped, run⟩ := bind_eq_ok.mp run
      have later := ih mid distinct.2 run
      obtain ⟨lookup, cap⟩ := settleSupply_eq_ok stepped id
      by_cases own : id = first
      · -- The step of the asset itself; the rest of the loop leaves it alone.
        subst own
        rw [if_neg distinct.1] at later
        rw [if_pos List.mem_cons_self]
        rw [if_pos rfl] at lookup
        exact ⟨later.trans lookup, cap⟩
      · rw [if_neg own] at lookup
        rw [lookup] at later
        simpa [own] using later
  have run := loop _ _ (nodup_sortedIds _) settled
  split_ifs at run with moved
  · exact run
  · have zero := supplyDelta_eq_zero moved
    rw [zero]
    have unchanged : AssetRegistryEntry.settle 0 = fun e => e := funext fun e => e.settle_zero
    refine ⟨run.trans ?_, fun e _ => by simp [CapKept]⟩
    rw [unchanged]
    simp

/-- The registry pass on one entry: fees, at most one registration, then the supply within the
cap. -/
theorem connectAssets_entry (limit : (registeredIds txs).Nodup)
    (connected : connectAssets ctx txs view undo = .ok (view', undo')) (id : Uint256) : ∃ staged,
      Staged ctx txs id ((view.policies.get? id).map (AssetRegistryEntry.credit undo.fee_undo id))
        staged ∧ (∀ e, staged = some e → CapKept (supplyDelta txs id) e) ∧
      view'.policies.get? id = staged.map (AssetRegistryEntry.settle (supplyDelta txs id)) := by
  obtain ⟨_, _, first, second, _, rfl, rfl⟩ := connectAssets_eq_ok connected
  have staged := connectAssetTxs_staged limit first id
  rw [creditFees_get?] at staged
  obtain ⟨lookup, cap⟩ := settleSupplies_eq_ok second id
  exact ⟨_, staged, cap, lookup⟩

end Block

end TensorCash
