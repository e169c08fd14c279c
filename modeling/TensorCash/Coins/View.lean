import TensorCash.Assets.Registry
import TensorCash.Lib.OrdMap
import Mathlib.Data.List.Forall2
import Mathlib.Data.List.Lex

/-! `coins.{h,cpp}` and `undo.h`. A cache over a database answers as one map. -/

namespace TensorCash

structure Coin where
  out : CTxOut
  nHeight : Nat
  fCoinBase : Bool
deriving DecidableEq

structure TickerKey where
  ticker : Bytes
deriving DecidableEq

instance : LinearOrder TickerKey :=
  LinearOrder.lift' (fun k => k.ticker.map UInt8.toNat) fun a b same => by
    cases a
    cases b
    simpa using List.map_injective_iff.mpr (fun _ _ => UInt8.toNat_inj.mp) same

structure IcuKey where
  asset_id : Uint256
  icu_ctxt_commit : Uint256
deriving DecidableEq

instance : LinearOrder IcuKey :=
  LinearOrder.lift' (fun k => toLex (k.asset_id, k.icu_ctxt_commit)) fun a b same => by
    cases a
    cases b
    simpa using same

structure FeedKey where
  asset_id : Uint256
  feed_id : UInt32
deriving DecidableEq

instance : LinearOrder FeedKey :=
  LinearOrder.lift' (fun k => toLex (k.asset_id, k.feed_id.toNat)) fun a b same => by
    cases a
    cases b
    simpa [UInt32.toNat_inj] using same

structure ScalarKey where
  feed : FeedKey
  epoch : UInt64
deriving DecidableEq

instance : LinearOrder ScalarKey :=
  LinearOrder.lift' (fun k => toLex (k.feed, k.epoch.toNat)) fun a b same => by
    cases a
    cases b
    simpa [UInt64.toNat_inj] using same

structure IcuStorageEntry where
  icu_cipher : Bytes
  compression : UInt8
  encryption_mode : UInt8
  visibility : UInt8
  canonical_hash : Uint256
  witness_hash : Uint256
deriving DecidableEq

structure CCoinsView where
  bestBlock : Uint256
  coins : OrdMap COutPoint Coin := ∅
  policies : OrdMap Uint256 AssetRegistryEntry := ∅
  tickers : OrdMap TickerKey Uint256 := ∅
  vks : OrdMap Uint256 Bytes := ∅
  icus : OrdMap IcuKey IcuStorageEntry := ∅
  scalars : OrdMap ScalarKey ScalarRecord := ∅
  scalarHeads : OrdMap FeedKey UInt64 := ∅
deriving DecidableEq

/-- `CCoinsViewCache::AddCoin`. That no unspent coin is overwritten is BIP30's check. -/
def addCoin (coins : OrdMap COutPoint Coin) (outpoint : COutPoint) (coin : Coin) : OrdMap COutPoint Coin :=
  if isUnspendable coin.out.scriptPubKey then coins else coins.insert outpoint coin

def addCoinsFrom (txid : Uint256) (nHeight : Nat) (fCoinbase : Bool) :
    Nat → List CTxOut → OrdMap COutPoint Coin → OrdMap COutPoint Coin
  | _, [], coins => coins
  | i, out :: rest, coins =>
    addCoinsFrom txid nHeight fCoinbase (i + 1) rest
      (addCoin coins ⟨txid, UInt32.ofNat i⟩ ⟨out, nHeight, fCoinbase⟩)

def addCoins (txid : Uint256) (tx : CTransaction) (nHeight : Nat) (coins : OrdMap COutPoint Coin) :
    OrdMap COutPoint Coin := addCoinsFrom txid nHeight tx.isCoinBase 0 tx.vout coins

def spendCoins (vin : List CTxIn) (coins : OrdMap COutPoint Coin) : OrdMap COutPoint Coin :=
  vin.foldl (fun coins i => coins.erase i.prevout) coins

def updateCoins (txid : Uint256) (tx : CTransaction) (nHeight : Nat)
    (coins : OrdMap COutPoint Coin) : OrdMap COutPoint Coin :=
  addCoins txid tx nHeight (if tx.isCoinBase then coins else spendCoins tx.vin coins)

def inputCoins (coins : OrdMap COutPoint Coin) (tx : CTransaction) : Option (List Coin) :=
  tx.vin.mapM fun i => coins.get? i.prevout

theorem get?_spendCoins (vin : List CTxIn) (coins : OrdMap COutPoint Coin) (o : COutPoint) :
    (spendCoins vin coins).get? o = if o ∈ vin.map CTxIn.prevout then none else coins.get? o := by
  unfold spendCoins
  induction vin generalizing coins with
  | nil => simp
  | cons i rest ih =>
    rw [List.foldl_cons, ih, OrdMap.get?_erase]
    by_cases later : o ∈ rest.map CTxIn.prevout
    · simp only [later, if_true, List.map_cons, List.mem_cons, or_true]
    · by_cases here : o = i.prevout
      · simp only [here, if_true, List.map_cons, List.mem_cons, true_or, ite_self]
      · simp only [later, here, if_false, List.map_cons, List.mem_cons, or_self]

variable {txid : Uint256} {nHeight : Nat} {o : COutPoint} {i : CTxIn}

theorem get?_addCoinsFrom_of_ne {fCoinbase : Bool}
    (differ : o.hash ≠ txid) (start : Nat) (vout : List CTxOut) (coins : OrdMap COutPoint Coin) :
    (addCoinsFrom txid nHeight fCoinbase start vout coins).get? o = coins.get? o := by
  induction vout generalizing start coins with
  | nil => rfl
  | cons out rest ih =>
    rw [addCoinsFrom, ih, addCoin]
    split_ifs
    · rfl
    · refine OrdMap.get?_insert_of_ne _ _ _ fun same => ?_
      exact differ (congrArg COutPoint.hash same)

variable {tx : CTransaction} {found : List Coin} {coins : OrdMap COutPoint Coin}

theorem get?_updateCoins_of_ne (differ : o.hash ≠ txid) :
    (updateCoins txid tx nHeight coins).get? o =
      if tx.isCoinBase = false ∧ o ∈ tx.vin.map CTxIn.prevout then none else coins.get? o := by
  rw [updateCoins, addCoins, get?_addCoinsFrom_of_ne differ]
  cases tx.isCoinBase
  · simp only [Bool.false_eq_true, if_false, true_and]
    exact get?_spendCoins _ _ _
  · rfl

theorem get?_addCoinsFrom_cases {fCoinbase : Bool} {coin : Coin} {vout : List CTxOut} {start : Nat}
    (found : (addCoinsFrom txid nHeight fCoinbase start vout coins).get? o = some coin) :
    (∃ index, (coin.out, index) ∈ vout.zipIdx start ∧ o = ⟨txid, UInt32.ofNat index⟩ ∧
      isUnspendable coin.out.scriptPubKey = false) ∨ coins.get? o = some coin := by
  induction vout generalizing start coins with
  | nil => exact .inr found
  | cons out rest ih =>
    rw [addCoinsFrom] at found
    rcases ih found with ⟨index, member, place, spendable⟩ | before
    · exact .inl ⟨index, by simp [member], place, spendable⟩
    · -- The first output is the only one that this step may have filed.
      unfold addCoin at before
      split_ifs at before with burned
      · exact .inr before
      · rw [OrdMap.get?_insert] at before
        split_ifs at before with own
        · cases before
          exact .inl ⟨start, by simp, own, by simpa using burned⟩
        · exact .inr before

theorem get?_updateCoins_cases {coin : Coin}
    (found : (updateCoins txid tx nHeight coins).get? o = some coin) :
    (∃ index, (coin.out, index) ∈ tx.vout.zipIdx ∧ o = ⟨txid, UInt32.ofNat index⟩ ∧
      isUnspendable coin.out.scriptPubKey = false) ∨
    coins.get? o = some coin ∧ (tx.isCoinBase = false → o ∉ tx.vin.map CTxIn.prevout) := by
  rcases get?_addCoinsFrom_cases found with new | old
  · exact .inl new
  · right
    cases mint : tx.isCoinBase with
    | true =>
      rw [if_pos mint] at old
      exact ⟨old, by simp⟩
    | false =>
      rw [if_neg (by simp [mint]), get?_spendCoins] at old
      split_ifs at old with spent
      exact ⟨old, fun _ => spent⟩

theorem forall₂_of_inputCoins (inputs : inputCoins coins tx = some found) :
    List.Forall₂ (fun i coin => coins.get? i.prevout = some coin) tx.vin found := by
  unfold inputCoins at inputs
  generalize tx.vin = vin at inputs
  -- One input takes one coin, so the two lists run out together.
  induction vin generalizing found with
  | nil =>
    obtain rfl : [] = found := by simpa using inputs
    exact .nil
  | cons first rest ih =>
    rw [List.mapM_cons] at inputs
    cases head : coins.get? first.prevout with
    | none => simp [head] at inputs
    | some coin =>
      cases tail : rest.mapM fun i => coins.get? i.prevout with
      | none => simp [head, tail] at inputs
      | some others =>
        obtain rfl : coin :: others = found := by simpa [head, tail] using inputs
        exact .cons head (ih tail)

theorem get?_of_mem_zip_inputCoins (inputs : inputCoins coins tx = some found) {coin : Coin}
    (spent : (i, coin) ∈ tx.vin.zip found) : coins.get? i.prevout = some coin :=
  (List.forall₂_iff_zip.mp (forall₂_of_inputCoins inputs)).2 spent

theorem isSome_of_inputCoins (inputs : inputCoins coins tx = some found)
    (member : i ∈ tx.vin) : (coins.get? i.prevout).isSome := by
  have same := (forall₂_of_inputCoins inputs).length_eq
  have firsts : (tx.vin.zip found).map Prod.fst = tx.vin := List.map_fst_zip (by omega)
  rw [← firsts, List.mem_map] at member
  obtain ⟨⟨i, coin⟩, paired, rfl⟩ := member
  simp [get?_of_mem_zip_inputCoins inputs paired]

structure RegUndoEntry where
  asset_id : Uint256
  prev : Option AssetRegistryEntry
deriving DecidableEq

structure FeeUndoEntry where
  asset_id : Uint256
  delta : UInt64
deriving DecidableEq

structure VkUndoEntry where
  vk_hash : Uint256
  prev_payload : Option Bytes
deriving DecidableEq

structure IcuUndoEntry where
  key : IcuKey
  prev_payload : Option IcuStorageEntry
deriving DecidableEq

structure ScalarUndoEntry where
  key : ScalarKey
  prev_last_epoch : Option UInt64
deriving DecidableEq

structure CBlockUndo where
  /-- The coins that each transaction but the coinbase has spent. -/
  vtxundo : List (List Coin) := []
  reg_undo : List RegUndoEntry := []
  fee_undo : List FeeUndoEntry := []
  vk_undo : List VkUndoEntry := []
  icu_undo : List IcuUndoEntry := []
  scalar_undo : List ScalarUndoEntry := []
deriving DecidableEq

end TensorCash
