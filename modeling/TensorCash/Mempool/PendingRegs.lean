import TensorCash.Validation.RegChain

/-! The registration overlay of `CTxMemPool` and its checks in `MemPoolAccept::PreChecks`, at one
tip. -/

namespace TensorCash

open Checked

structure MempoolAssetReg where
  outpoint : COutPoint
  ticker : Bytes
  decimals : UInt8
  txid : Uint256
deriving DecidableEq

def CTransaction.prevouts (tx : CTransaction) : List COutPoint := tx.vin.map CTxIn.prevout

section Pool

variable (getHash : CTransaction → Uint256)

def assetRegOf (tx : CTransaction) (p : PendingIssuerReg) : MempoolAssetReg :=
  ⟨⟨getHash tx, UInt32.ofNat p.index⟩, p.reg.ticker, p.reg.decimals, getHash tx⟩

/-- The loop of `AddAssetRegs`, which `PreChecks` repeats for its package. -/
def recordAssetRegs (regs : OrdMap Uint256 MempoolAssetReg) (tx : CTransaction) :
    OrdMap Uint256 MempoolAssetReg :=
  (pendingRegs tx).foldl (fun regs p => regs.insert p.reg.asset_id (assetRegOf getHash tx p)) regs

def Failure.reason : Failure → String
  | .invalid _ reason => reason
  | .error reason => reason

variable (tip : CCoinsView) (policy : AdmissionPolicy)

inductive PoolEvent where
  | single (tx : CTransaction)
  | package (txns : List CTransaction)
  | remove (gone : List Uint256)

def PoolEvent.offered : PoolEvent → List CTransaction
  | single tx => [tx]
  | package txns => txns
  | remove _ => []

end Pool

section Overlay

variable {getHash : CTransaction → Uint256} {tip : CCoinsView} {pool : CTxMemPool}
  {tx : CTransaction} {regs : OrdMap Uint256 MempoolAssetReg} {txs : List CTransaction}

def OverlayExact (getHash : CTransaction → Uint256) (regs : OrdMap Uint256 MempoolAssetReg)
    (txs : List CTransaction) : Prop :=
  ∀ id r, regs.get? id = some r ↔ ∃ tx ∈ txs, ∃ p ∈ pendingRegs tx, p.reg.asset_id = id ∧ r = assetRegOf getHash tx p

def IdsDistinct (tx : CTransaction) : Prop :=
  ∀ p ∈ pendingRegs tx, ∀ p' ∈ pendingRegs tx, p.reg.asset_id = p'.reg.asset_id → p = p'

theorem get?_foldl_insert {α : Type} (key : α → Uint256) (value : α → MempoolAssetReg) {items : List α}
    (distinct : ∀ a ∈ items, ∀ b ∈ items, key a = key b → a = b) (id : Uint256) (r : MempoolAssetReg) :
    (items.foldl (fun regs a => regs.insert (key a) (value a)) regs).get? id = some r ↔
      (∃ a ∈ items, key a = id ∧ r = value a) ∨ (∀ a ∈ items, key a ≠ id) ∧ regs.get? id = some r := by
  induction items generalizing regs with
  | nil => simp
  | cons first rest ih =>
    have others : ∀ a ∈ rest, ∀ b ∈ rest, key a = key b → a = b := fun a ha b hb =>
      distinct a (.tail _ ha) b (.tail _ hb)
    rw [List.foldl_cons, ih others, OrdMap.get?_insert]
    by_cases here : id = key first
    · subst here
      -- A later item under the same key would be the first one again.
      have again : ∀ a ∈ rest, key a = key first → value a = value first := fun a ha same => by
        rw [distinct a (.tail _ ha) first (.head _) same]
      simp only [List.mem_cons, if_true, Option.some.injEq]
      constructor
      · rintro (⟨a, ha, same, rfl⟩ | ⟨_, rfl⟩)
        · exact .inl ⟨a, .inr ha, same, rfl⟩
        · exact .inl ⟨first, .inl rfl, rfl, rfl⟩
      · rintro (⟨a, rfl | ha, same, rfl⟩ | ⟨none_, _⟩)
        · by_cases later : ∃ b ∈ rest, key b = key a
          · obtain ⟨b, hb, same'⟩ := later
            exact .inl ⟨b, hb, same', (again b hb same').symm⟩
          · exact .inr ⟨fun b hb same' => later ⟨b, hb, same'⟩, rfl⟩
        · exact .inl ⟨a, ha, same, rfl⟩
        · exact absurd rfl (none_ first (.inl rfl))
    · simp only [here, if_false, List.mem_cons]
      constructor
      · rintro (⟨a, ha, same, rfl⟩ | ⟨none_, found⟩)
        · exact .inl ⟨a, .inr ha, same, rfl⟩
        · exact .inr ⟨fun a ha => ha.elim (fun eq => eq ▸ Ne.symm here) (none_ a), found⟩
      · rintro (⟨a, rfl | ha, same, rfl⟩ | ⟨none_, found⟩)
        · exact absurd same.symm here
        · exact .inl ⟨a, ha, same, rfl⟩
        · exact .inr ⟨fun a ha => none_ a (.inr ha), found⟩

theorem OverlayExact.record (exact_ : OverlayExact getHash regs txs) (distinct : IdsDistinct tx)
    (new : ∀ p ∈ pendingRegs tx, regs.get? p.reg.asset_id = none) :
    OverlayExact getHash (recordAssetRegs getHash regs tx) (txs ++ [tx]) := by
  intro id r
  unfold recordAssetRegs
  rw [get?_foldl_insert (fun p : PendingIssuerReg => p.reg.asset_id) (assetRegOf getHash tx) distinct, exact_ id r]
  constructor
  · rintro (⟨p, hp, same, rfl⟩ | ⟨_, other, member, found⟩)
    · exact ⟨tx, by simp, p, hp, same, rfl⟩
    · exact ⟨other, by simp [member], found⟩
  · rintro ⟨other, member, p, hp, rfl, rfl⟩
    rcases List.mem_append.1 member with old | last
    · -- An older registration of the asset stands in the overlay, so the new one has none.
      refine .inr ⟨fun q hq same => ?_, other, old, p, hp, rfl, rfl⟩
      have found := (exact_ p.reg.asset_id _).2 ⟨other, old, p, hp, rfl, rfl⟩
      rw [← same, new q hq] at found
      cases found
    · obtain rfl := List.mem_singleton.1 last
      exact .inl ⟨p, hp, rfl, rfl⟩

/-- Each asset's credential is an unspent output that registers the asset. -/
def CredentialsLive (tip : CCoinsView) : Prop :=
  ∀ id cur, tip.policies.get? id = some cur → ∃ coin reg, tip.coins.get? cur.icu_outpoint = some coin ∧
    parseIssuerReg coin.out.vExt = some reg ∧ reg.asset_id = id

section Submission

variable {package : OrdMap Uint256 MempoolAssetReg} {base : CTxMemPool} {gone : List Uint256}
  {earlier txns : List CTransaction}

variable {policy : AdmissionPolicy}

end Submission

end Overlay

namespace PendingRegs

def named (id : Uint256) (ticker : Bytes) : IssuerReg :=
  { RegChain.firstReg with asset_id := id, ticker }

def registering (spent : COutPoint) (regs : List IssuerReg) : CTransaction where
  version := 2
  vin := [{ prevout := spent, scriptSig := [], nSequence := 0, scriptWitness := [] }]
  vout := regs.map RegChain.credential
  nLockTime := 0

/-- A tip with one asset, whose credential the first transaction has made. -/
def tip : CCoinsView where
  bestBlock := 0
  coins := (∅ : OrdMap COutPoint Coin).insert ⟨1, 0⟩ ⟨RegChain.credential (named 6 [65, 66, 67]), 1, false⟩
  policies := (∅ : OrdMap Uint256 AssetRegistryEntry).insert 6 { icu_outpoint := ⟨1, 0⟩, ticker := [65, 66, 67] }

def update : CTransaction := registering ⟨1, 0⟩ [named 6 [65, 66, 67]]

theorem live : CredentialsLive tip := by
  intro id cur known
  obtain rfl : id = 6 := by
    by_contra other
    simp [tip, OrdMap.get?_insert_of_ne _ _ _ other] at known
  obtain rfl : cur = { icu_outpoint := ⟨1, 0⟩, ticker := [65, 66, 67] } := by
    simpa [tip] using known.symm
  exact ⟨_, named 6 [65, 66, 67], OrdMap.get?_insert_self .., by decide +kernel, rfl⟩

end PendingRegs

end TensorCash
