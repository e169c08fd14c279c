import TensorCash.Primitives.TxidBinding
import TensorCash.Validation.AssetChain

/-! An unspent output with a registration is its asset's current credential. -/

namespace TensorCash

open Checked

structure CredentialsOk (coins : OrdMap COutPoint Coin) (policies : OrdMap Uint256 AssetRegistryEntry) : Prop where
  filed : ∀ o coin reg, coins.get? o = some coin → parseIssuerReg coin.out.vExt = some reg →
    ∃ e, policies.get? reg.asset_id = some e ∧ e.icu_outpoint = o
  -- A coinbase names the null outpoint as spent.
  nonnull : ∀ o coin, coins.get? o = some coin → o.isNull = false

def SameCredentials (policies policies' : OrdMap Uint256 AssetRegistryEntry) : Prop :=
  ∀ id, (policies'.get? id).map AssetRegistryEntry.icu_outpoint = (policies.get? id).map AssetRegistryEntry.icu_outpoint

def OutputsAmong (coins coins' : OrdMap COutPoint Coin) : Prop :=
  ∀ o coin, coins'.get? o = some coin → ∃ old, coins.get? o = some old ∧ old.out = coin.out

theorem OutputsAmong.refl (coins : OrdMap COutPoint Coin) : OutputsAmong coins coins :=
  fun _ coin found => ⟨coin, found, rfl⟩

theorem CredentialsOk.of_same {coins coins' : OrdMap COutPoint Coin}
    {policies policies' : OrdMap Uint256 AssetRegistryEntry} (ok : CredentialsOk coins policies)
    (among : OutputsAmong coins coins') (same : SameCredentials policies policies') :
    CredentialsOk coins' policies' where
  filed o coin reg found parsed := by
    obtain ⟨old, there, out⟩ := among o coin found
    obtain ⟨e, known, current⟩ := ok.filed o old reg there (by rw [out]; exact parsed)
    have pointer := same reg.asset_id
    rw [known, Option.map_some, Option.map_eq_some_iff] at pointer
    obtain ⟨e', known', equal⟩ := pointer
    exact ⟨e', known', equal.trans current⟩
  nonnull o coin found := by
    obtain ⟨old, there, _⟩ := among o coin found
    exact ok.nonnull o old there

theorem newEntry_icu_outpoint (ctx : BlockContext) (tx : CTransaction) (p : PendingIssuerReg)
    (prev : Option AssetRegistryEntry) (ticker : Bytes) (decimals : UInt8) :
    (newEntry ctx tx p prev ticker decimals).icu_outpoint = ⟨tx.txid ctx.env.crypto, UInt32.ofNat p.index⟩ := by
  obtain ⟨_, _, _, _, _, _, _, _, form⟩ := newEntry_eq ctx tx p prev ticker decimals
  rw [form]
  rfl

theorem mem_pendingRegs {tx : CTransaction} {out : CTxOut} {index : Nat} {reg : IssuerReg}
    (member : (out, index) ∈ tx.vout.zipIdx) (parsed : parseIssuerReg out.vExt = some reg) :
    (⟨index, out, reg⟩ : PendingIssuerReg) ∈ pendingRegs tx :=
  List.mem_filterMap.mpr ⟨(out, index), member, by simp [parsed]⟩

section Transaction

variable {ctx : BlockContext} {coins : OrdMap COutPoint Coin} {tx : CTransaction}
  {found : List Coin} {policies policies' : OrdMap Uint256 AssetRegistryEntry}

theorem getLast?_pendingOf {p q : PendingIssuerReg}
    (distinct : ((pendingRegs tx).map fun p => p.reg.asset_id).Nodup) (listed : p ∈ pendingRegs tx)
    (last : (pendingOf (pendingRegs tx) p.reg.asset_id).getLast? = some q) : q = p := by
  obtain ⟨member, named⟩ := asset_id_of_getLast? last
  exact List.inj_on_of_nodup_map distinct member listed named

theorem nonnull_of_index {index : Nat} {out : CTxOut} (checked : checkTransaction tx = .ok ⟨⟩)
    (member : (out, index) ∈ tx.vout.zipIdx) (txid : Uint256) :
    (⟨txid, UInt32.ofNat index⟩ : COutPoint).isNull = false := by
  obtain ⟨_, short⟩ := checkTransaction_inputs checked
  have count := tx.vout_length_le
  have below : index < tx.vout.length := by
    have := (List.mem_zipIdx member).2.1
    omega
  unfold WITNESS_SCALE_FACTOR MAX_BLOCK_WEIGHT at short
  have differ : UInt32.ofNat index ≠ COutPoint.NULL_INDEX := by
    intro same
    have numbers := congrArg UInt32.toNat same
    simp only [UInt32.toNat_ofNat', COutPoint.NULL_INDEX] at numbers
    have null : (0xffffffff : UInt32).toNat = 4294967295 := rfl
    omega
  simp [COutPoint.isNull, differ]

theorem CredentialsOk.transaction (ok : CredentialsOk coins policies) (checked : checkTransaction tx = .ok ⟨⟩)
    (distinct : ((pendingRegs tx).map fun p => p.reg.asset_id).Nodup)
    (accepted : AssetTxAccepted ctx policies tx found policies') :
    CredentialsOk (updateCoins (tx.txid ctx.env.crypto) tx ctx.nHeight coins) policies' where
  filed o coin reg present parsed := by
    rcases get?_updateCoins_cases present with ⟨index, member, rfl, _⟩ | ⟨old, unspent⟩
    · -- A new output with a registration is what the entry now points at.
      have listed := mem_pendingRegs member parsed
      obtain ⟨p, new, last, registers, stored⟩ := accepted.registered reg.asset_id (List.mem_map_of_mem listed)
      obtain rfl := getLast?_pendingOf distinct listed last
      obtain ⟨ticker, decimals, rfl⟩ := registers.entry
      exact ⟨_, stored, newEntry_icu_outpoint _ _ _ _ _ _⟩
    · obtain ⟨e, known, current⟩ := ok.filed o coin reg old parsed
      by_cases again : reg.asset_id ∈ (pendingRegs tx).map fun p => p.reg.asset_id
      · -- The asset is registered anew, so its credential is among the inputs.
        obtain ⟨p, listed, named⟩ := List.mem_map.mp again
        obtain ⟨i, inside, spends⟩ := accepted.renewed p listed e (by rw [named]; exact known)
        have taken : o ∈ tx.vin.map CTxIn.prevout := List.mem_map.mpr ⟨i, inside, spends.trans current⟩
        cases mint : tx.isCoinBase with
        | false => exact absurd taken (unspent mint)
        | true =>
          have null : o.isNull = true := by
            unfold CTransaction.isCoinBase at mint
            split at mint
            · next i' single =>
              rw [single] at inside
              obtain rfl : i = i' := by simpa using inside
              rw [← spends.trans current]
              exact mint
            · cases mint
          rw [ok.nonnull o coin old] at null
          cases null
      · exact ⟨e, (accepted.kept _ again).trans known, current⟩
  nonnull o coin present := by
    rcases get?_updateCoins_cases present with ⟨index, member, rfl, _⟩ | ⟨old, _⟩
    · exact nonnull_of_index checked member _
    · exact ok.nonnull o coin old

end Transaction

theorem TxAccepted.found {ctx : BlockContext} {db : ModelDb} {view : CCoinsView}
    {pass pass' : CoinsPass} {tx : CTransaction} {found : List Coin}
    (accepted : TxAccepted ctx db view pass tx found pass') {i : CTxIn} {coin : Coin}
    (spent : (i, coin) ∈ tx.vin.zip found) : pass.coins.get? i.prevout = some coin := by
  cases mint : tx.isCoinBase with
  | true =>
    rw [(accepted.mint mint).1] at spent
    simp at spent
  | false =>
    obtain ⟨fee, checked, _⟩ := accepted.spend mint
    exact get?_of_mem_zip_inputCoins (checkTxInputs_eq_ok checked).1 spent

/-- A spent credential: an entry points at it, and one successor has a sufficient bond. -/
structure CredentialSpent (policies : OrdMap Uint256 AssetRegistryEntry) (tx : CTransaction)
    (i : CTxIn) (coin : Coin) (id : Uint256) : Prop where
  spends : ∃ cur p, policies.get? id = some cur ∧ cur.icu_outpoint = i.prevout ∧
    pendingOf (pendingRegs tx) id = [p] ∧ BondKept cur coin.out.nValue.toInt p.out.nValue.toInt

section Block

variable {ctx : BlockContext} {db : ModelDb} {view next : CCoinsView} {block : CBlock}
  {undo : CBlockUndo} {p p' : CoinsPass} {pass pass' : RegistryPass}

theorem CredentialsOk.transactions {vtx : List CTransaction} (ok : CredentialsOk p.coins pass.view.policies)
    (connected : vtx.foldlM (connectTx ctx db view) p = .ok p')
    (registered : (blockSpends ctx.env.crypto ctx.nHeight p.coins vtx).foldlM (connectAssetTx ctx)
      pass = .ok pass') (checked : ∀ tx ∈ vtx, checkTransaction tx = .ok ⟨⟩)
    (limit : (registeredIds (blockSpends ctx.env.crypto ctx.nHeight p.coins vtx)).Nodup) :
    CredentialsOk p'.coins pass'.view.policies ∧
      ∀ tx found i coin reg, (tx, found) ∈ blockSpends ctx.env.crypto ctx.nHeight p.coins vtx →
        (i, coin) ∈ tx.vin.zip found → parseIssuerReg coin.out.vExt = some reg →
          CredentialSpent pass.view.policies tx i coin reg.asset_id := by
  induction vtx generalizing p pass with
  | nil =>
    cases connected
    cases registered
    exact ⟨ok, by simp [blockSpends]⟩
  | cons tx rest ih =>
    rw [List.foldlM_cons] at connected
    obtain ⟨mid, stepped, connected⟩ := bind_eq_ok.mp connected
    obtain ⟨found, accepted⟩ := connectTx_accepted stepped
    have head : blockSpends ctx.env.crypto ctx.nHeight p.coins (tx :: rest) =
        (tx, found) :: blockSpends ctx.env.crypto ctx.nHeight mid.coins rest := by
      have spent : mid.spent = p.spent ++ blockSpends ctx.env.crypto ctx.nHeight p.coins [tx] :=
        connectTxs_spends (by rw [List.foldlM_cons, stepped]; rfl)
      rw [accepted.spent] at spent
      have same := List.append_cancel_left spent
      simp only [blockSpends, List.cons.injEq, and_true] at same
      rw [blockSpends, ← same, accepted.coins]
    rw [head] at registered limit ⊢
    rw [List.foldlM_cons] at registered
    obtain ⟨passed, taken, registered⟩ := bind_eq_ok.mp registered
    have asset := connectAssetTx_accepted taken
    rw [show (tx, found) :: blockSpends ctx.env.crypto ctx.nHeight mid.coins rest =
      [(tx, found)] ++ blockSpends ctx.env.crypto ctx.nHeight mid.coins rest from rfl,
      registeredIds_append, List.nodup_append, registeredIds_singleton] at limit
    obtain ⟨distinct, later, apart⟩ := limit
    have kept : CredentialsOk mid.coins passed.view.policies := by
      rw [accepted.coins]
      exact ok.transaction (checked tx List.mem_cons_self) distinct asset
    obtain ⟨final, spends⟩ := ih kept connected registered
      (fun t member => checked t (List.mem_cons_of_mem _ member)) later
    refine ⟨final, fun t coins i coin reg member inside parsed => ?_⟩
    rcases List.mem_cons.mp member with here | after
    · obtain ⟨rfl, rfl⟩ := Prod.mk.inj here
      obtain ⟨cur, known, current⟩ := ok.filed _ coin reg (accepted.found inside) parsed
      obtain ⟨q, alone, bond⟩ := asset.replaced i coin reg cur inside parsed known current
      exact ⟨cur, q, known, current, alone, bond⟩
    · -- The asset is registered later in the block, so not by the first transaction.
      obtain ⟨cur, q, known, current, alone, bond⟩ := (spends t coins i coin reg after inside parsed).spends
      have inLater : reg.asset_id ∈ registeredIds (blockSpends ctx.env.crypto ctx.nHeight mid.coins rest) := by
        have listed : q ∈ pendingOf (pendingRegs t) reg.asset_id := by simp [alone]
        obtain ⟨listed, named⟩ := mem_pendingOf.mp listed
        exact List.mem_flatMap.mpr ⟨_, after, named ▸ List.mem_map_of_mem listed⟩
      have silent : reg.asset_id ∉ (pendingRegs tx).map fun p => p.reg.asset_id :=
        fun own => apart _ own _ inLater rfl
      rw [asset.kept _ silent] at known
      exact ⟨cur, q, known, current, alone, bond⟩

theorem AssetRegistryEntry.settle_icu_outpoint (delta : Int64) (e : AssetRegistryEntry) :
    (e.settle delta).icu_outpoint = e.icu_outpoint := by
  unfold AssetRegistryEntry.settle
  split_ifs <;> rfl

theorem creditFees_sameCredentials (fees : List FeeUndoEntry) (view : CCoinsView) :
    SameCredentials view.policies (creditFees fees view).policies := by
  intro id
  rw [creditFees_get?, Option.map_map]
  rfl

theorem settleSupplies_sameCredentials {txs : List (CTransaction × List Coin)}
    (settled : (movedAssets txs).foldlM (settleSupply txs) pass = .ok pass') :
    SameCredentials pass.view.policies pass'.view.policies := by
  intro id
  rw [(settleSupplies_eq_ok settled id).1, Option.map_map]
  congr 1
  funext e
  exact e.settle_icu_outpoint _

theorem BlockAccepted.credentials {p : CoinsPass} {assets : CCoinsView}
    (accepted : BlockAccepted ctx db view block p assets undo) (ok : CredentialsOk view.coins view.policies) :
    CredentialsOk assets.coins assets.policies ∧ ∀ tx found i coin reg,
        (tx, found) ∈ blockSpends ctx.env.crypto ctx.nHeight view.coins block.vtx →
        (i, coin) ∈ tx.vin.zip found → parseIssuerReg coin.out.vExt = some reg →
          CredentialSpent (creditFees undo.fee_undo view).policies tx i coin reg.asset_id := by
  have registry := accepted.registry
  obtain ⟨coins, _, fees⟩ := connectAssets_sameCoins registry
  obtain ⟨pass₁, pass₂, first, second, _, rfl, rfl⟩ := connectAssets_eq_ok registry
  obtain ⟨_, _, _, _, _, each⟩ := checkBlock_transactions accepted.checked
  -- The transactions find the entries with the block's fees on them.
  have start : CredentialsOk view.coins
      (creditFees p.fee_undo { view with coins := p.coins }).policies :=
    ok.of_same (.refl _) (creditFees_sameCredentials p.fee_undo { view with coins := p.coins })
  rw [accepted.spent_eq] at first second
  obtain ⟨kept, spends⟩ := CredentialsOk.transactions (p := { coins := view.coins }) start
    accepted.coins first each accepted.limit
  refine ⟨?_, ?_⟩
  · rw [coins]
    exact kept.of_same (.refl _) (settleSupplies_sameCredentials second)
  · rw [fees]
    exact spends

theorem CredentialsOk.connect (ok : CredentialsOk view.coins view.policies)
    (connected : connectBlock ctx db view block = .ok (next, undo)) :
    CredentialsOk next.coins next.policies := by
  by_cases above : ctx.blockHash = ctx.env.params.hashGenesisBlock
  · simp only [connectBlock, bind_eq_ok, if_pos above] at connected
    obtain ⟨_, _, _, _, _, _, done⟩ := connected
    cases done
    exact ok
  · obtain ⟨pass, assets, accepted, rfl⟩ := connectBlock_accepted above connected
    exact (accepted.credentials ok).1

end Block

end TensorCash
