import TensorCash.Coins.View
import TensorCash.Lib.Overlay

/-! `coins.cpp`, `coins_asset_delta.h` and `txdb.cpp`: stacked caches of the registry over the
database, compared with plain maps. -/

namespace TensorCash

structure AssetMaps where
  policies : OrdMap Uint256 AssetRegistryEntry := ∅
  tickers : OrdMap TickerKey Uint256 := ∅
  vks : OrdMap Uint256 Bytes := ∅
  icus : OrdMap IcuKey IcuStorageEntry := ∅
  scalars : OrdMap ScalarKey ScalarRecord := ∅
  scalarHeads : OrdMap FeedKey UInt64 := ∅
deriving DecidableEq

/-- A change that is staged: `Stage*` with a value, `StageErase*` without. -/
inductive AssetOp where
  | policy (aid : Uint256) (entry : Option AssetRegistryEntry)
  | ticker (ticker : TickerKey) (asset : Option Uint256)
  | vk (vk_hash : Uint256) (payload : Option Bytes)
  | icu (key : IcuKey) (entry : Option IcuStorageEntry)
  | scalar (key : ScalarKey) (record : Option ScalarRecord)
  | scalarHead (key : FeedKey) (last_epoch : Option UInt64)
deriving DecidableEq

def AssetOp.apply (maps : AssetMaps) : AssetOp → AssetMaps
  | .policy aid entry => { maps with policies := maps.policies.set aid entry }
  | .ticker name asset => { maps with tickers := maps.tickers.set name asset }
  | .vk vk_hash payload => { maps with vks := maps.vks.set vk_hash payload }
  | .icu key entry => { maps with icus := maps.icus.set key entry }
  | .scalar key record => { maps with scalars := maps.scalars.set key record }
  | .scalarHead key last_epoch => { maps with scalarHeads := maps.scalarHeads.set key last_epoch }

/-- `CAssetRegistryDelta`: the last change staged for each key, an erasure being no value. -/
structure CAssetRegistryDelta where
  policy : OrdMap Uint256 (Option AssetRegistryEntry) := ∅
  ticker : OrdMap TickerKey (Option Uint256) := ∅
  vk : OrdMap Uint256 (Option Bytes) := ∅
  icu : OrdMap IcuKey (Option IcuStorageEntry) := ∅
  scalar : OrdMap ScalarKey (Option ScalarRecord) := ∅
  scalar_head : OrdMap FeedKey (Option UInt64) := ∅
deriving DecidableEq

namespace CAssetRegistryDelta

/-- `StageAssetPolicy` and its siblings: later changes supersede earlier ones. -/
def stage (delta : CAssetRegistryDelta) : AssetOp → CAssetRegistryDelta
  | .policy aid entry => { delta with policy := delta.policy.insert aid entry }
  | .ticker name asset => { delta with ticker := delta.ticker.insert name asset }
  | .vk vk_hash payload => { delta with vk := delta.vk.insert vk_hash payload }
  | .icu key entry => { delta with icu := delta.icu.insert key entry }
  | .scalar key record => { delta with scalar := delta.scalar.insert key record }
  | .scalarHead key last_epoch => { delta with scalar_head := delta.scalar_head.insert key last_epoch }

def merge (parent child : CAssetRegistryDelta) : CAssetRegistryDelta where
  policy := Overlay.merge parent.policy child.policy
  ticker := Overlay.merge parent.ticker child.ticker
  vk := Overlay.merge parent.vk child.vk
  icu := Overlay.merge parent.icu child.icu
  scalar := Overlay.merge parent.scalar child.scalar
  scalar_head := Overlay.merge parent.scalar_head child.scalar_head

def commit (delta : CAssetRegistryDelta) (maps : AssetMaps) : AssetMaps where
  policies := Overlay.commit delta.policy maps.policies
  tickers := Overlay.commit delta.ticker maps.tickers
  vks := Overlay.commit delta.vk maps.vks
  icus := Overlay.commit delta.icu maps.icus
  scalars := Overlay.commit delta.scalar maps.scalars
  scalarHeads := Overlay.commit delta.scalar_head maps.scalarHeads

def ops (delta : CAssetRegistryDelta) : List AssetOp :=
  (delta.policy.entries.map fun p => .policy p.1 p.2) ++ (delta.ticker.entries.map fun p => .ticker p.1 p.2) ++
    (delta.vk.entries.map fun p => .vk p.1 p.2) ++ (delta.icu.entries.map fun p => .icu p.1 p.2) ++
    (delta.scalar.entries.map fun p => .scalar p.1 p.2) ++ (delta.scalar_head.entries.map fun p => .scalarHead p.1 p.2)

@[simp] theorem commit_empty (maps : AssetMaps) : commit {} maps = maps := rfl

theorem commit_stage (delta : CAssetRegistryDelta) (op : AssetOp) (maps : AssetMaps) :
    (delta.stage op).commit maps = AssetOp.apply (delta.commit maps) op := by
  cases op <;> simp only [stage, commit, AssetOp.apply, Overlay.commit_insert]

theorem commit_merge (parent child : CAssetRegistryDelta) (maps : AssetMaps) :
    (parent.merge child).commit maps = child.commit (parent.commit maps) := by
  simp only [merge, commit, Overlay.commit_merge]

theorem foldl_apply_family {K V : Type} [LinearOrder K] (op : K → Option V → AssetOp)
    (get : AssetMaps → OrdMap K V) (put : OrdMap K V → AssetMaps → AssetMaps)
    (applies : ∀ k v maps, AssetOp.apply maps (op k v) = put ((get maps).set k v) maps)
    (get_put : ∀ m maps, get (put m maps) = m)
    (put_put : ∀ m m' maps, put m (put m' maps) = put m maps)
    (put_get : ∀ maps, put (get maps) maps = maps) (changes : List (K × Option V))
    (maps : AssetMaps) :
    (changes.map fun p => op p.1 p.2).foldl AssetOp.apply maps =
      put (Overlay.replay changes (get maps)) maps := by
  induction changes generalizing maps with
  | nil => exact (put_get maps).symm
  | cons change rest ih =>
    rw [List.map_cons, List.foldl_cons, ih, applies, get_put, put_put]
    rfl

theorem foldl_ops (delta : CAssetRegistryDelta) (maps : AssetMaps) :
    delta.ops.foldl AssetOp.apply maps = delta.commit maps := by
  unfold ops
  simp only [List.foldl_append]
  rw [foldl_apply_family .policy (·.policies) (fun m maps => { maps with policies := m })
      (fun _ _ _ => rfl) (fun _ _ => rfl) (fun _ _ _ => rfl) (fun _ => rfl),
    foldl_apply_family .ticker (·.tickers) (fun m maps => { maps with tickers := m })
      (fun _ _ _ => rfl) (fun _ _ => rfl) (fun _ _ _ => rfl) (fun _ => rfl),
    foldl_apply_family .vk (·.vks) (fun m maps => { maps with vks := m })
      (fun _ _ _ => rfl) (fun _ _ => rfl) (fun _ _ _ => rfl) (fun _ => rfl),
    foldl_apply_family .icu (·.icus) (fun m maps => { maps with icus := m })
      (fun _ _ _ => rfl) (fun _ _ => rfl) (fun _ _ _ => rfl) (fun _ => rfl),
    foldl_apply_family .scalar (·.scalars) (fun m maps => { maps with scalars := m })
      (fun _ _ _ => rfl) (fun _ _ => rfl) (fun _ _ _ => rfl) (fun _ => rfl),
    foldl_apply_family .scalarHead (·.scalarHeads) (fun m maps => { maps with scalarHeads := m })
      (fun _ _ _ => rfl) (fun _ _ => rfl) (fun _ _ _ => rfl) (fun _ => rfl)]
  rfl

end CAssetRegistryDelta

/-- The database. A block hash of zero stands for a missing entry, as the readers report it. -/
structure CCoinsViewDB where
  coins : OrdMap COutPoint Coin := ∅
  assets : AssetMaps := {}
  bestBlock : Uint256 := 0
  headBlocks : List Uint256 := []
  assetBestBlock : Uint256 := 0
deriving DecidableEq

inductive DbWrite where
  | coin (outpoint : COutPoint) (coin : Option Coin)
  | asset (op : AssetOp)
  | bestBlock (hash : Uint256)
  | headBlocks (heads : List Uint256)
  | assetBestBlock (hash : Uint256)

namespace CCoinsViewDB

def write (db : CCoinsViewDB) : DbWrite → CCoinsViewDB
  | .coin outpoint coin => { db with coins := db.coins.set outpoint coin }
  | .asset op => { db with assets := AssetOp.apply db.assets op }
  | .bestBlock hash => { db with bestBlock := hash }
  | .headBlocks heads => { db with headBlocks := heads }
  | .assetBestBlock hash => { db with assetBestBlock := hash }

def writeBatch (db : CCoinsViewDB) (batch : List DbWrite) : CCoinsViewDB := batch.foldl write db

/-- The cursor's coins go into the open batch, which is written out when it has grown too large. -/
def writeCoins (full : List DbWrite → Bool) :
    List (COutPoint × Option Coin) → List DbWrite → CCoinsViewDB → List DbWrite × CCoinsViewDB
  | [], batch, db => (batch, db)
  | (outpoint, coin) :: rest, batch, db =>
    let batch := batch ++ [.coin outpoint coin]
    if full batch then writeCoins full rest [] (db.writeBatch batch)
    else writeCoins full rest batch db

/-- The tip that the database moves away from; nothing in the middle of another move. -/
def oldTip (db : CCoinsViewDB) (hashBlock : Uint256) : Option Uint256 :=
  if db.bestBlock = 0 then
    match db.headBlocks with
    | [target, source] => if target = hashBlock then some source else none
    | _ => some 0
  else some db.bestBlock

def batchWrite (full : List DbWrite → Bool) (db : CCoinsViewDB) (coins : List (COutPoint × Option Coin))
    (delta : CAssetRegistryDelta) (hashBlock : Uint256) : Option CCoinsViewDB :=
  if hashBlock = 0 then none
  else match db.oldTip hashBlock with
    | none => none
    | some old_tip =>
      let (batch, db) := writeCoins full coins [.bestBlock 0, .headBlocks [hashBlock, old_tip]] db
      some (db.writeBatch (batch ++ [.headBlocks [], .bestBlock hashBlock] ++ delta.ops.map .asset ++
        [.assetBestBlock hashBlock]))

theorem writeBatch_append (db : CCoinsViewDB) (first second : List DbWrite) :
    db.writeBatch (first ++ second) = (db.writeBatch first).writeBatch second := List.foldl_append

theorem writeBatch_writeCoins (full : List DbWrite → Bool) (coins : List (COutPoint × Option Coin))
    (batch : List DbWrite) (db : CCoinsViewDB) :
    (writeCoins full coins batch db).2.writeBatch (writeCoins full coins batch db).1 =
      db.writeBatch (batch ++ coins.map fun p => .coin p.1 p.2) := by
  induction coins generalizing batch db with
  | nil => simp [writeCoins]
  | cons p rest ih =>
    rw [writeCoins]
    split_ifs
    · rw [ih, List.nil_append, ← writeBatch_append, List.append_assoc]
      rfl
    · rw [ih]
      simp only [List.map_cons, List.append_assoc, List.singleton_append]

theorem writeBatch_coins (coins : List (COutPoint × Option Coin)) (db : CCoinsViewDB) :
    db.writeBatch (coins.map fun p => .coin p.1 p.2) = { db with coins := Overlay.replay coins db.coins } := by
  induction coins generalizing db with
  | nil => rfl
  | cons p rest ih =>
    rw [List.map_cons, writeBatch, List.foldl_cons, ← writeBatch, ih]
    rfl

theorem writeBatch_assets (ops : List AssetOp) (db : CCoinsViewDB) :
    db.writeBatch (ops.map .asset) = { db with assets := ops.foldl AssetOp.apply db.assets } := by
  induction ops generalizing db with
  | nil => rfl
  | cons op rest ih =>
    rw [List.map_cons, writeBatch, List.foldl_cons, ← writeBatch, ih]
    rfl

theorem batchWrite_eq_some {full : List DbWrite → Bool} {db next : CCoinsViewDB}
    {coins : List (COutPoint × Option Coin)} {delta : CAssetRegistryDelta} {hashBlock : Uint256}
    (completed : db.batchWrite full coins delta hashBlock = some next) : next =
      { coins := Overlay.replay coins db.coins
        assets := delta.commit db.assets
        bestBlock := hashBlock
        headBlocks := []
        assetBestBlock := hashBlock } := by
  unfold batchWrite at completed
  split_ifs at completed
  split at completed
  · exact absurd completed (by simp)
  · next old_tip _ =>
    rw [← Option.some.inj completed]
    have cut := writeBatch_writeCoins full coins [.bestBlock 0, .headBlocks [hashBlock, old_tip]] db
    rw [writeBatch_append, writeBatch_append, writeBatch_append, cut, writeBatch_append, writeBatch_coins,
      writeBatch_assets, CAssetRegistryDelta.foldl_ops]
    rfl

end CCoinsViewDB

/-- What one `CCoinsViewCache` holds of the registry: its buffer and its best block. -/
structure CCoinsViewCache where
  m_asset_delta : CAssetRegistryDelta := {}
  hashBlock : Uint256 := 0
deriving DecidableEq

structure CacheStack where
  caches : List CCoinsViewCache
  db : CCoinsViewDB

/-- What can be done to a stack, with the cursor's coins and the cuts of the batches. -/
inductive CacheEvent where
  | push
  | pop
  | stage (layer : Nat) (op : AssetOp)
  | setBestBlock (layer : Nat) (hash : Uint256)
  | flush (layer : Nat) (coins : List (COutPoint × Option Coin)) (full : List DbWrite → Bool)
  | sync (layer : Nat) (coins : List (COutPoint × Option Coin)) (full : List DbWrite → Bool)

namespace CacheStack

/-- `Flush` and `Sync` of a layer: the buffer goes to the view below. -/
def handDown (full : List DbWrite → Bool) (coins : List (COutPoint × Option Coin)) :
    Nat → List CCoinsViewCache → CCoinsViewDB → Option (List CCoinsViewCache × CCoinsViewDB)
  | _, [], _ => none
  | 0, [cache], db =>
    (db.batchWrite full coins cache.m_asset_delta cache.hashBlock).map fun db =>
      ([{ cache with m_asset_delta := {} }], db)
  | 0, cache :: parent :: below, db =>
    some ({ cache with m_asset_delta := {} } ::
      { m_asset_delta := parent.m_asset_delta.merge cache.m_asset_delta, hashBlock := cache.hashBlock } :: below, db)
  | layer + 1, cache :: rest, db => (handDown full coins layer rest db).map fun (rest, db) => (cache :: rest, db)

def step (s : CacheStack) : CacheEvent → Option CacheStack
  | .push => some { s with caches := {} :: s.caches }
  | .pop => some { s with caches := s.caches.tail }
  | .stage layer op =>
    some { s with
      caches := s.caches.modify layer fun cache =>
        { cache with m_asset_delta := cache.m_asset_delta.stage op } }
  | .setBestBlock layer hash =>
    some { s with caches := s.caches.modify layer fun cache => { cache with hashBlock := hash } }
  | .flush layer coins full | .sync layer coins full =>
    (handDown full coins layer s.caches s.db).map fun (caches, db) => ⟨caches, db⟩

def run (s : CacheStack) : List CacheEvent → Option CacheStack
  | [] => some s
  | event :: events => (s.step event).bind fun next => next.run events

section Reads

variable {K V : Type} [LinearOrder K]

/-- A read: a staged change wins, otherwise the view below answers. -/
def readThrough (family : CAssetRegistryDelta → OrdMap K (Option V)) (stored : AssetMaps → OrdMap K V)
    (db : CCoinsViewDB) (k : K) : List CCoinsViewCache → Option V
  | [] => (stored db.assets).get? k
  | cache :: below => Overlay.read (family cache.m_asset_delta) (readThrough family stored db k below) k

end Reads

variable (s : CacheStack) (layer : Nat)

def readAssetPolicy (aid : Uint256) : Option AssetRegistryEntry :=
  readThrough (·.policy) (·.policies) s.db aid (s.caches.drop layer)

def readTickerBinding (ticker : TickerKey) : Option Uint256 :=
  readThrough (·.ticker) (·.tickers) s.db ticker (s.caches.drop layer)

def readZkVerifyingKey (vk_hash : Uint256) : Option Bytes :=
  readThrough (·.vk) (·.vks) s.db vk_hash (s.caches.drop layer)

def readIcuPayload (key : IcuKey) : Option IcuStorageEntry :=
  readThrough (·.icu) (·.icus) s.db key (s.caches.drop layer)

def readAssetScalar (key : ScalarKey) : Option ScalarRecord :=
  readThrough (·.scalar) (·.scalars) s.db key (s.caches.drop layer)

def readAssetScalarHead (key : FeedKey) : Option UInt64 :=
  readThrough (·.scalar_head) (·.scalarHeads) s.db key (s.caches.drop layer)

end CacheStack

/-- The changes of each layer that are not handed down yet, over plain maps. -/
structure PlainStack where
  logs : List (List AssetOp)
  base : AssetMaps

namespace PlainStack

def content (base : AssetMaps) : List (List AssetOp) → AssetMaps
  | [] => base
  | log :: below => log.foldl AssetOp.apply (content base below)

def view (p : PlainStack) (layer : Nat) : AssetMaps := content p.base (p.logs.drop layer)

def handDown : Nat → List (List AssetOp) → AssetMaps → List (List AssetOp) × AssetMaps
  | _, [], base => ([], base)
  | 0, [log], base => ([[]], log.foldl AssetOp.apply base)
  | 0, log :: parent :: below, base => ([] :: (parent ++ log) :: below, base)
  | layer + 1, log :: rest, base =>
    let (rest, base) := handDown layer rest base
    (log :: rest, base)

def step (p : PlainStack) : CacheEvent → PlainStack
  | .push => { p with logs := [] :: p.logs }
  | .pop => { p with logs := p.logs.tail }
  | .stage layer op => { p with logs := p.logs.modify layer fun log => log ++ [op] }
  | .setBestBlock _ _ => p
  | .flush layer _ _ | .sync layer _ _ =>
    let (logs, base) := handDown layer p.logs p.base
    ⟨logs, base⟩

def run (p : PlainStack) (events : List CacheEvent) : PlainStack := events.foldl step p

end PlainStack

def CCoinsViewCache.Makes (cache : CCoinsViewCache) (log : List AssetOp) : Prop :=
  ∀ maps, cache.m_asset_delta.commit maps = log.foldl AssetOp.apply maps

structure CacheStack.Refines (s : CacheStack) (p : PlainStack) : Prop where
  layers : List.Forall₂ CCoinsViewCache.Makes s.caches p.logs
  base : s.db.assets = p.base

variable {log : List AssetOp} {caches : List CCoinsViewCache} {logs : List (List AssetOp)}
  {s : CacheStack} {p : PlainStack}

theorem CCoinsViewCache.Makes.stage {cache : CCoinsViewCache}
    (makes : cache.Makes log) (op : AssetOp) :
    { cache with m_asset_delta := cache.m_asset_delta.stage op }.Makes (log ++ [op]) := by
  intro maps
  rw [CAssetRegistryDelta.commit_stage, makes, List.foldl_append]
  rfl

theorem CCoinsViewCache.Makes.merge {child parent : CCoinsViewCache} {parentLog : List AssetOp}
    (makes : child.Makes log) (below : parent.Makes parentLog) (hash : Uint256) : CCoinsViewCache.Makes
      { m_asset_delta := parent.m_asset_delta.merge child.m_asset_delta, hashBlock := hash }
      (parentLog ++ log) := by
  intro maps
  rw [CAssetRegistryDelta.commit_merge, below, makes, List.foldl_append]

theorem forall₂_modify {α β : Type} {R : α → β → Prop} {f : α → α} {g : β → β}
    (keeps : ∀ a b, R a b → R (f a) (g b)) {l : List α} {m : List β} (related : List.Forall₂ R l m)
    (i : Nat) : List.Forall₂ R (l.modify i f) (m.modify i g) := by
  induction related generalizing i with
  | nil => cases i <;> exact .nil
  | cons head tail ih =>
    cases i with
    | zero => exact .cons (keeps _ _ head) tail
    | succ i => exact .cons head (ih i)

theorem CacheStack.refines_handDown {full : List DbWrite → Bool} {coins : List (COutPoint × Option Coin)}
    {layer : Nat} {db : CCoinsViewDB}
    {base : AssetMaps} (layers : List.Forall₂ CCoinsViewCache.Makes caches logs) (same : db.assets = base)
    {caches' : List CCoinsViewCache} {db' : CCoinsViewDB}
    (handed : handDown full coins layer caches db = some (caches', db')) :
    List.Forall₂ CCoinsViewCache.Makes caches' (PlainStack.handDown layer logs base).1 ∧
      db'.assets = (PlainStack.handDown layer logs base).2 := by
  induction layers generalizing layer caches' db' with
  | nil => cases layer <;> exact absurd handed (by simp [handDown])
  | @cons cache log below logs makes rest ih =>
    cases layer with
    | succ layer =>
      rw [handDown] at handed
      obtain ⟨⟨caches'', db''⟩, inner, result⟩ := Option.map_eq_some_iff.mp handed
      obtain ⟨rfl, rfl⟩ := Prod.mk.inj result
      obtain ⟨layers, same⟩ := ih inner
      rw [PlainStack.handDown]
      exact ⟨.cons makes layers, same⟩
    | zero =>
      cases rest with
      | nil =>
        -- The database below: its batch makes the changes of the buffer.
        obtain ⟨db'', written, result⟩ := Option.map_eq_some_iff.mp handed
        obtain ⟨rfl, rfl⟩ := Prod.mk.inj result
        refine ⟨.cons (fun maps => rfl) .nil, ?_⟩
        rw [CCoinsViewDB.batchWrite_eq_some written, ← same]
        exact makes db.assets
      | cons parentMakes rest =>
        cases handed
        exact ⟨.cons (fun maps => rfl) (.cons (makes.merge parentMakes _) rest), same⟩

theorem CacheStack.Refines.step {next : CacheStack} (refines : s.Refines p)
    {event : CacheEvent} (stepped : s.step event = some next) : next.Refines (p.step event) := by
  cases event with
  | push =>
    rw [← Option.some.inj stepped]
    exact ⟨.cons (fun maps => rfl) refines.layers, refines.base⟩
  | pop =>
    rw [← Option.some.inj stepped]
    refine ⟨?_, refines.base⟩
    obtain ⟨caches, db⟩ := s
    obtain ⟨logs, base⟩ := p
    cases refines.layers with
    | nil => exact .nil
    | cons _ below => exact below
  | stage layer op =>
    rw [← Option.some.inj stepped]
    exact ⟨forall₂_modify (fun _ _ makes => makes.stage op) refines.layers layer, refines.base⟩
  | setBestBlock layer hash =>
    rw [← Option.some.inj stepped]
    refine ⟨?_, refines.base⟩
    have kept : List.Forall₂ CCoinsViewCache.Makes
        (s.caches.modify layer fun cache => { cache with hashBlock := hash }) (p.logs.modify layer id) := by
      refine forall₂_modify (fun cache log makes => ?_) refines.layers layer
      exact makes
    rwa [List.modify_id] at kept
  | flush layer coins full | sync layer coins full =>
    obtain ⟨⟨caches, db⟩, handed, rfl⟩ := Option.map_eq_some_iff.mp stepped
    obtain ⟨layers, base⟩ := refines_handDown refines.layers refines.base handed
    exact ⟨layers, base⟩

theorem CacheStack.Refines.run {final : CacheStack} (refines : s.Refines p)
    {events : List CacheEvent} (reached : s.run events = some final) : final.Refines (p.run events) := by
  induction events generalizing s p with
  | nil => exact Option.some.inj reached ▸ refines
  | cons event events ih =>
    obtain ⟨next, stepped, rest⟩ := Option.bind_eq_some_iff.mp reached
    exact ih (refines.step stepped) rest

theorem CacheStack.readThrough_eq {K V : Type} [LinearOrder K]
    {family : CAssetRegistryDelta → OrdMap K (Option V)} {stored : AssetMaps → OrdMap K V}
    (commits : ∀ (delta : CAssetRegistryDelta) maps,
      stored (delta.commit maps) = Overlay.commit (family delta) (stored maps))
    (db : CCoinsViewDB) (k : K)
    (layers : List.Forall₂ CCoinsViewCache.Makes caches logs) :
    readThrough family stored db k caches = (stored (PlainStack.content db.assets logs)).get? k := by
  induction layers with
  | nil => rfl
  | cons makes _ ih => rw [readThrough, ih, PlainStack.content, ← makes, commits, Overlay.get?_commit]

/-- Whatever is staged, erased, flushed and synced in a stack of caches, every read at every layer
is that of the plain maps with the visible changes made; and a completed `BatchWrite` leaves the
database with the flushed changes and the new best block. -/
theorem cacheStack_reads_plain_maps (db : CCoinsViewDB) (events : List CacheEvent) (s : CacheStack)
    (reached : (CacheStack.mk [] db).run events = some s) :
    (∀ layer,
      (∀ aid, s.readAssetPolicy layer aid =
        ((PlainStack.run ⟨[], db.assets⟩ events).view layer).policies.get? aid) ∧
      (∀ ticker, s.readTickerBinding layer ticker =
        ((PlainStack.run ⟨[], db.assets⟩ events).view layer).tickers.get? ticker) ∧
      (∀ vk_hash, s.readZkVerifyingKey layer vk_hash =
        ((PlainStack.run ⟨[], db.assets⟩ events).view layer).vks.get? vk_hash) ∧
      (∀ key, s.readIcuPayload layer key =
        ((PlainStack.run ⟨[], db.assets⟩ events).view layer).icus.get? key) ∧
      (∀ key, s.readAssetScalar layer key =
        ((PlainStack.run ⟨[], db.assets⟩ events).view layer).scalars.get? key) ∧
      ∀ key, s.readAssetScalarHead layer key =
        ((PlainStack.run ⟨[], db.assets⟩ events).view layer).scalarHeads.get? key) ∧
    ∀ full coins delta hashBlock next, s.db.batchWrite full coins delta hashBlock = some next →
      next =
        { coins := Overlay.replay coins s.db.coins
          assets := delta.commit s.db.assets
          bestBlock := hashBlock
          headBlocks := []
          assetBestBlock := hashBlock } := by
  have start : (CacheStack.mk [] db).Refines ⟨[], db.assets⟩ := ⟨.nil, rfl⟩
  have refines := start.run reached
  refine ⟨fun layer => ?_, fun _ _ _ _ _ completed => CCoinsViewDB.batchWrite_eq_some completed⟩
  have below := List.forall₂_drop layer refines.layers
  simp only [PlainStack.view, ← refines.base]
  exact ⟨fun aid => CacheStack.readThrough_eq (fun _ _ => rfl) s.db aid below,
    fun ticker => CacheStack.readThrough_eq (fun _ _ => rfl) s.db ticker below,
    fun vk_hash => CacheStack.readThrough_eq (fun _ _ => rfl) s.db vk_hash below,
    fun key => CacheStack.readThrough_eq (fun _ _ => rfl) s.db key below,
    fun key => CacheStack.readThrough_eq (fun _ _ => rfl) s.db key below,
    fun key => CacheStack.readThrough_eq (fun _ _ => rfl) s.db key below⟩

def erasedAbove : List CacheEvent :=
  [.push, .push, .stage 0 (.vk 7 (some [1])), .setBestBlock 0 9, .flush 0 [] fun _ => true,
    .stage 0 (.vk 7 none), .sync 1 [] fun _ => true]

/-- The erasure is seen above and not below, where the key was written. -/
theorem erasedAbove_reads : ∃ s, (CacheStack.mk [] {}).run erasedAbove = some s ∧
    s.readZkVerifyingKey 0 7 = none ∧ s.readZkVerifyingKey 2 7 = some [1] := by
  have evaluated : ((CacheStack.mk [] {}).run erasedAbove).isSome = true := by decide +kernel
  obtain ⟨s, reached⟩ := Option.isSome_iff_exists.mp evaluated
  obtain ⟨reads, _⟩ := cacheStack_reads_plain_maps {} erasedAbove s reached
  obtain ⟨_, _, above, _⟩ := reads 0
  obtain ⟨_, _, below, _⟩ := reads 2
  refine ⟨s, reached, ?_, ?_⟩
  · rw [above]
    decide +kernel
  · rw [below]
    decide +kernel

end TensorCash
