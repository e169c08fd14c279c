import TensorCash.Validation.Replay
import TensorCash.Validation.RegChain

/-! One record for each epoch and the last epoch; disconnecting unwinds publications one by one. -/

namespace TensorCash

open Checked

abbrev Feeds : Type := OrdMap ScalarKey ScalarRecord × OrdMap FeedKey UInt64

def feedsOf (view : CCoinsView) : Feeds := (view.scalars, view.scalarHeads)

/-- Feeds at a height: epochs from one to the head, at heights in order and not in the future. -/
structure FeedsOk (nHeight : Nat) (feeds : Feeds) : Prop where
  gapless : ∀ feed epoch, (feeds.1.get? ⟨feed, epoch⟩).isSome = true ↔
    ∃ head, feeds.2.get? feed = some head ∧ 1 ≤ epoch ∧ epoch ≤ head
  started : ∀ feed head, feeds.2.get? feed = some head → 1 ≤ head
  ordered : ∀ feed epoch epoch' r r', feeds.1.get? ⟨feed, epoch⟩ = some r →
    feeds.1.get? ⟨feed, epoch'⟩ = some r' → epoch ≤ epoch' → r.publication_height ≤ r'.publication_height
  recent : ∀ key r, feeds.1.get? key = some r → r.publication_height ≤ nHeight

def revertFeed (feeds : Feeds) (u : ScalarUndoEntry) : Feeds :=
  (feeds.1.erase u.key, feeds.2.set u.key.feed u.prev_last_epoch)

def PublishedBy (tx : CTransaction) (key : ScalarKey) (record : ScalarRecord) : Prop :=
  ∃ out ∈ tx.vout, ∃ pub, parseIssuerScalar out.vExt = some pub ∧
    key = ⟨⟨pub.underlying_asset_id, pub.feed_id⟩, pub.scalar_epoch⟩ ∧
    record.scalar = pub.scalar ∧ record.scalar_format_id = pub.scalar_format_id

def SpendsRegistration (tx : CTransaction) (coins : List Coin) (id : Uint256) : Prop :=
  ∃ i coin reg, (i, coin) ∈ tx.vin.zip coins ∧ parseIssuerReg coin.out.vExt = some reg ∧ reg.asset_id = id

structure Publishes (feeds feeds' : Feeds) (key : ScalarKey) (record : ScalarRecord) : Prop where
  scalars : feeds'.1 = feeds.1.insert key record
  heads : feeds'.2 = feeds.2.insert key.feed key.epoch
  fresh : feeds.1.get? key = none
  next : key.epoch = ((feeds.2.get? key.feed).map (· + 1)).getD 1
  room : feeds.2.get? key.feed ≠ some 0xFFFFFFFFFFFFFFFF

theorem checkScalarPublication_eq_none {format : UInt16} {scalar : Uint256} {epoch : UInt64}
    {unspendable registered authenticated known : Bool} {head : Option UInt64}
    (accepted : checkScalarPublication format scalar epoch unspendable registered authenticated head known =
      none) : authenticated = true ∧ head ≠ some 0xFFFFFFFFFFFFFFFF ∧ epoch = (head.map (· + 1)).getD 1 ∧
      known = false := by
  unfold checkScalarPublication at accepted
  split_ifs at accepted with _ _ _ _ auth _ room next fresh
  exact ⟨by simpa using auth, room, not_not.mp next, by simpa using fresh⟩

variable {view : CCoinsView} {feeds : Feeds} {nHeight : Nat}

section Step

variable {feeds feeds' : Feeds} {key : ScalarKey} {record : ScalarRecord}

theorem Publishes.reverted (publishes : Publishes feeds feeds' key record) :
    revertFeed feeds' ⟨key, feeds.2.get? key.feed⟩ = feeds := by
  refine Prod.ext ?_ ?_
  · ext1 other
    show ((feeds'.1).erase key).get? other = _
    rw [publishes.scalars, OrdMap.get?_erase, OrdMap.get?_insert]
    split_ifs with own
    · rw [own, publishes.fresh]
    · rfl
  · ext1 other
    show ((feeds'.2).set key.feed _).get? other = _
    rw [publishes.heads, OrdMap.get?_set, OrdMap.get?_insert]
    split_ifs with own
    · rw [own]
    · rfl

theorem Publishes.epochs (publishes : Publishes feeds feeds' key record) (epoch : UInt64) :
    (1 ≤ epoch ∧ epoch ≤ key.epoch) ↔
      epoch = key.epoch ∨ ∃ head, feeds.2.get? key.feed = some head ∧ 1 ≤ epoch ∧ epoch ≤ head := by
  have next := publishes.next
  have room := publishes.room
  cases found : feeds.2.get? key.feed with
  | none =>
    rw [found] at next
    simp only [Option.map_none, Option.getD_none] at next
    rw [next]
    simp only [reduceCtorEq, false_and, exists_false, or_false]
    refine ⟨fun both => UInt64.le_antisymm both.2 both.1, ?_⟩
    rintro rfl
    exact ⟨UInt64.le_refl _, UInt64.le_refl _⟩
  | some head =>
    rw [found] at next room
    simp only [Option.map_some, Option.getD_some] at next
    have small : head.toNat + 1 < 2 ^ 64 := by
      have bound := head.toNat_lt
      have differ : head.toNat ≠ 2 ^ 64 - 1 := fun same =>
        room (congrArg some (UInt64.toNat_inj.mp (by rw [same]; rfl)))
      omega
    have value : key.epoch.toNat = head.toNat + 1 := by
      rw [next, UInt64.toNat_add, UInt64.toNat_one, Nat.mod_eq_of_lt small]
    simp only [Option.some.injEq, exists_eq_left']
    simp only [UInt64.le_iff_toNat_le, ← UInt64.toNat_inj, UInt64.toNat_one, value]
    omega

theorem FeedsOk.publish (ok : FeedsOk nHeight feeds)
    (publishes : Publishes feeds feeds' key record) (now : record.publication_height = nHeight) :
    FeedsOk nHeight feeds' := by
  have scalars : ∀ other, feeds'.1.get? other = if other = key then some record else feeds.1.get? other :=
    fun other => by
      rw [publishes.scalars, OrdMap.get?_insert]
      split_ifs <;> rfl
  have heads : ∀ feed, feeds'.2.get? feed = if feed = key.feed then some key.epoch else feeds.2.get? feed :=
    fun feed => by
      rw [publishes.heads, OrdMap.get?_insert]
      split_ifs <;> rfl
  -- An epoch of the same feed that is not the new one lies below it.
  have below : ∀ epoch r, feeds.1.get? ⟨key.feed, epoch⟩ = some r → epoch ≤ key.epoch := by
    intro epoch r found
    exact ((publishes.epochs epoch).mpr (.inr ((ok.gapless _ _).mp (by rw [found]; rfl)))).2
  refine ⟨fun feed epoch => ?_, fun feed head found => ?_, fun feed epoch epoch' r r' found found' le => ?_,
    fun other r found => ?_⟩
  · rw [scalars, heads]
    by_cases own : feed = key.feed
    · subst own
      simp only [if_true, Option.some.injEq, exists_eq_left']
      rw [publishes.epochs epoch, ← ok.gapless]
      by_cases same : epoch = key.epoch
      · simp [same]
      · have differ : (⟨key.feed, epoch⟩ : ScalarKey) ≠ key := fun eq => same (by rw [← eq])
        simp [differ, same]
    · have differ : (⟨feed, epoch⟩ : ScalarKey) ≠ key := fun eq => own (by rw [← eq])
      rw [if_neg differ, if_neg own]
      exact ok.gapless feed epoch
  · rw [heads] at found
    split_ifs at found with own
    · rw [← Option.some.inj found]
      exact ((publishes.epochs key.epoch).mpr (.inl rfl)).1
    · exact ok.started feed head found
  · rw [scalars] at found found'
    split_ifs at found found' with own own' own'
    · rw [← Option.some.inj found, ← Option.some.inj found']
    · -- Nothing lies above the new epoch.
      obtain rfl : feed = key.feed := by rw [← own]
      have same : epoch = key.epoch := by rw [← own]
      have equal : epoch' = key.epoch := UInt64.le_antisymm (below epoch' r' found') (same ▸ le)
      exact absurd (by rw [equal]) own'
    · rw [← Option.some.inj found', now]
      exact ok.recent _ r found
    · exact ok.ordered feed epoch epoch' r r' found found' le
  · rw [scalars] at found
    split_ifs at found
    · rw [← Option.some.inj found, now]
    · exact ok.recent other r found

end Step

theorem FeedsOk.mono {later : Nat} (ok : FeedsOk nHeight feeds) (le : nHeight ≤ later) : FeedsOk later feeds :=
  ⟨ok.gapless, ok.started, ok.ordered, fun key r found => (ok.recent key r found).trans le⟩

/-- What a stage keeps of the feeds: order, old records, new ones of the block, and the way back. -/
structure FeedsKept (start : Feeds) (nHeight : Nat) (txs : List (CTransaction × List Coin))
    (pass : RegistryPass) : Prop where
  ok : FeedsOk nHeight (feedsOf pass.view)
  old : ∀ key r, start.1.get? key = some r → pass.view.scalars.get? key = some r
  new : ∀ key r, pass.view.scalars.get? key = some r → start.1.get? key = none → r.publication_height = nHeight ∧
      ∃ tx coins, (tx, coins) ∈ txs ∧ PublishedBy tx key r ∧ SpendsRegistration tx coins key.feed.asset_id
  back : pass.undo.scalar_undo.reverse.foldl revertFeed (feedsOf pass.view) = start

structure SameFeeds (pass pass' : RegistryPass) : Prop where
  feeds : feedsOf pass'.view = feedsOf pass.view
  scalar_undo : pass'.undo.scalar_undo = pass.undo.scalar_undo

section Passes

variable {c : Crypto} {ctx : BlockContext} {env : ChainEnv} {tx : CTransaction} {coins : List Coin}
  {spent : List (Uint256 × Int)} {pass pass' : RegistryPass} {txs : List (CTransaction × List Coin)}
  {id : Uint256} {start : Feeds}

theorem registerAsset_sameFeeds (pass : RegistryPass) (p : PendingIssuerReg) :
    Ensures (SameFeeds pass) (registerAsset ctx tx coins spent pass p) := by
  intro pass' registered
  obtain ⟨_, _, _, _, _, _, _, _, keyed, texted, _, rfl⟩ := registerAsset_steps registered
  obtain ⟨_, _, _, _, rfl⟩ := installRegVk_installs _ _ keyed
  obtain ⟨_, _, _, _, rfl⟩ := installRegIcu_installs _ _ _ texted
  obtain ⟨_, bound⟩ := bindTicker_eq (pass.view.policies.get? p.reg.asset_id) p.reg pass.view
  exact ⟨by simp only [feedsOf, RegistryPass.noted, bound], rfl⟩

theorem FeedsKept.of_same (kept : FeedsKept start nHeight txs pass)
    (same : SameFeeds pass pass') : FeedsKept start nHeight txs pass' := by
  have scalars : pass'.view.scalars = pass.view.scalars := congrArg Prod.fst same.feeds
  refine ⟨same.feeds ▸ kept.ok, ?_, ?_, ?_⟩
  · rw [scalars]
    exact kept.old
  · rw [scalars]
    exact kept.new
  · rw [same.scalar_undo, same.feeds]
    exact kept.back

theorem spendsRegistration_of_spentBond
    (authorised : (spentBond (icuSpent view (tx.vin.zip coins)) id).isSome = true) :
    SpendsRegistration tx coins id := by
  rw [spentBond, Option.isSome_map] at authorised
  obtain ⟨⟨asset, bond⟩, found⟩ := Option.isSome_iff_exists.mp authorised
  have own := List.find?_some found
  obtain ⟨⟨i, coin⟩, mem, spends⟩ := List.mem_filterMap.mp (List.mem_of_find?_eq_some found)
  obtain ⟨reg, parsed, current⟩ := Option.bind_eq_some_iff.mp spends
  split_ifs at current
  refine ⟨i, coin, reg, mem, parsed, ?_⟩
  rw [(Prod.mk.inj (Option.some.inj current)).1]
  exact of_decide_eq_true own

theorem FeedsKept.publish {out : CTxOut} (kept : FeedsKept start ctx.nHeight txs pass)
    (member : (tx, coins) ∈ txs) (output : out ∈ tx.vout)
    (published : publishScalar ctx (icuSpent view (tx.vin.zip coins)) pass out = .ok pass') :
    FeedsKept start ctx.nHeight txs pass' := by
  unfold publishScalar at published
  split at published
  · cases published
    exact kept
  · next pub parsed =>
    dsimp only at published
    split at published
    · exact absurd published (by simp)
    · next accepted =>
      cases published
      obtain ⟨authorised, room, next, fresh⟩ := checkScalarPublication_eq_none accepted
      have absent : pass.view.scalars.get? ⟨⟨pub.underlying_asset_id, pub.feed_id⟩, pub.scalar_epoch⟩ =
          none := by
        simpa [OrdMap.contains] using fresh
      have publishes : Publishes (feedsOf pass.view)
          (pass.view.scalars.insert ⟨⟨pub.underlying_asset_id, pub.feed_id⟩, pub.scalar_epoch⟩
              ⟨pub.scalar, ctx.nHeight, pub.scalar_format_id⟩,
            pass.view.scalarHeads.insert ⟨pub.underlying_asset_id, pub.feed_id⟩ pub.scalar_epoch)
          ⟨⟨pub.underlying_asset_id, pub.feed_id⟩, pub.scalar_epoch⟩
          ⟨pub.scalar, ctx.nHeight, pub.scalar_format_id⟩ := ⟨rfl, rfl, absent, next, room⟩
      refine ⟨kept.ok.publish publishes rfl, fun key r found => ?_, fun key r found unknown => ?_, ?_⟩
      · -- The new key was not there, so it is none of the start's.
        have before := kept.old key r found
        refine (OrdMap.get?_insert_of_ne _ _ _ fun same => ?_).trans before
        rw [same, absent] at before
        exact absurd before (by simp)
      · rw [show _ = _ from OrdMap.get?_insert _ _ _ key] at found
        split_ifs at found with own
        · rw [← Option.some.inj found, own]
          exact ⟨rfl, tx, coins, member, ⟨out, output, pub, parsed, rfl, rfl, rfl⟩,
            spendsRegistration_of_spentBond authorised⟩
        · exact kept.new key r found unknown
      · show (pass.undo.scalar_undo ++ [_]).reverse.foldl revertFeed _ = start
        rw [List.reverse_append, List.reverse_singleton, List.singleton_append, List.foldl_cons]
        exact (congrArg (fun feeds => pass.undo.scalar_undo.reverse.foldl revertFeed feeds)
          publishes.reverted).trans kept.back

theorem FeedsKept.transaction (kept : FeedsKept start ctx.nHeight txs pass) (member : (tx, coins) ∈ txs)
    (connected : connectAssetTx ctx pass (tx, coins) = .ok pass') : FeedsKept start ctx.nHeight txs pass' := by
  obtain ⟨pass₁, pass₂, collected, _, published, _, _, connected⟩ := connectAssetTx_eq_ok connected
  obtain ⟨_, _, _, same⟩ := collectExtensions_collects _ _ collected
  have first : FeedsKept start ctx.nHeight txs pass₁ := kept.of_same (by rw [same]; exact ⟨rfl, rfl⟩)
  have second : FeedsKept start ctx.nHeight txs pass₂ := by
    unfold publishScalars at published
    split_ifs at published
    · exact foldlM_keeps (fun _ _ _ output kept stepped => FeedsKept.publish kept member output stepped)
        published first
    · exact Except.ok.inj published ▸ first
  exact foldlM_keeps (fun _ _ _ _ kept stepped => kept.of_same (registerAsset_sameFeeds _ _ _ stepped))
    connected second

theorem connectAssets_feeds {view' : CCoinsView} {undo undo' : CBlockUndo}
    (fresh : undo.scalar_undo = []) (ok : FeedsOk ctx.nHeight (feedsOf view))
    (connected : connectAssets ctx txs view undo = .ok (view', undo')) :
    ∃ pass : RegistryPass,
      pass.view = view' ∧ pass.undo = undo' ∧ FeedsKept (feedsOf view) ctx.nHeight txs pass := by
  obtain ⟨pass₁, pass₂, first, second, _, rfl, rfl⟩ := connectAssets_eq_ok connected
  have empty : FeedsKept (feedsOf view) ctx.nHeight txs { view := creditFees undo.fee_undo view, undo } := by
    refine ⟨ok, fun _ _ found => found, fun key r found unknown => ?_, ?_⟩
    · exact absurd (unknown.symm.trans found) (by simp)
    · rw [fresh]
      rfl
  have middle : FeedsKept (feedsOf view) ctx.nHeight txs pass₁ :=
    foldlM_keeps (fun _ _ entry member kept stepped => FeedsKept.transaction kept member stepped) first empty
  obtain ⟨_, _, rfl⟩ := settleSupplies_writes _ _ second
  exact ⟨_, rfl, rfl, middle.of_same ⟨rfl, rfl⟩⟩

end Passes

def Published (env : ChainEnv) (stack : List ConnectedBlock) (key : ScalarKey) (r : ScalarRecord) : Prop :=
  ∃ later top earlier, stack = later ++ top :: earlier ∧ r.publication_height = earlier.length + 1 ∧
    ∃ before after db, Reachable env earlier before ∧
      connectBlock (contextAt env (earlier.length + 1) top.block) db before top.block =
        .ok (after, top.undo) ∧ ∃ tx coins i coin,
        (tx, coins) ∈ blockSpends env.crypto (earlier.length + 1) before.coins top.block.vtx ∧
        PublishedBy tx key r ∧ (i, coin) ∈ tx.vin.zip coins ∧
        CredentialSpent (creditFees top.undo.fee_undo before).policies tx i coin key.feed.asset_id

def FeedsGood (env : ChainEnv) (stack : List ConnectedBlock) (feeds : Feeds) : Prop :=
  FeedsOk stack.length feeds ∧ ∀ key r, feeds.1.get? key = some r → Published env stack key r

theorem feedsOf_revertFee (view : CCoinsView) (f : FeeUndoEntry) :
    feedsOf (revertFee view f) = feedsOf view := by
  unfold revertFee
  split <;> rfl

theorem feedsOf_revertReg (view : CCoinsView) (u : RegUndoEntry) :
    feedsOf (revertReg view u) = feedsOf view := by
  unfold revertReg
  split <;> rfl

theorem feedsOf_revertAssets (undo : CBlockUndo) (view : CCoinsView) :
    feedsOf (revertAssets undo view) = undo.scalar_undo.reverse.foldl revertFeed (feedsOf view) := by
  have scalars : ∀ (us : List ScalarUndoEntry) (view : CCoinsView),
      feedsOf (us.foldl revertScalar view) = us.foldl revertFeed (feedsOf view) := by
    intro us
    induction us with
    | nil => exact fun _ => rfl
    | cons u us ih => exact fun view => ih (revertScalar view u)
  unfold revertAssets
  dsimp only
  rw [UndoLog.foldl_observe revertFee feedsOf feedsOf_revertFee, scalars,
    UndoLog.foldl_observe revertIcu feedsOf fun _ _ => rfl, UndoLog.foldl_observe revertVk feedsOf fun _ _ => rfl,
    UndoLog.foldl_observe revertReg feedsOf feedsOf_revertReg]

section Reachable

variable {env : ChainEnv} {stack stack' : List ConnectedBlock} {view view' : CCoinsView}
  {top : ConnectedBlock} {key : ScalarKey} {r : ScalarRecord} {db : ModelDb}
  {before after : CCoinsView}

theorem Published.later
    (published : Published env stack key r) : Published env (top :: stack) key r := by
  obtain ⟨later, block, earlier, rfl, rest⟩ := published
  exact ⟨top :: later, block, earlier, rfl, rest⟩

theorem connectBlock_feeds {block : CBlock}
    {undo : CBlockUndo} (above : block.getHash env.crypto ≠ env.params.hashGenesisBlock)
    (connected : connectBlock (contextAt env nHeight block) db before block = .ok (after, undo))
    (ok : FeedsOk nHeight (feedsOf before)) :
    ∃ pass : RegistryPass, feedsOf pass.view = feedsOf after ∧ pass.undo = undo ∧
      FeedsKept (feedsOf before) nHeight (blockSpends env.crypto nHeight before.coins block.vtx) pass := by
  obtain ⟨coins, assets, accepted, rfl⟩ := connectBlock_accepted above connected
  have registry := accepted.registry
  rw [accepted.spent_eq] at registry
  have start : FeedsOk nHeight (feedsOf { before with coins := coins.coins }) := ok
  obtain ⟨pass, rfl, rfl, kept⟩ := connectAssets_feeds rfl start registry
  exact ⟨pass, rfl, rfl, kept⟩

theorem Published.of_new
    {tx : CTransaction} {coins : List Coin}
    (reached : Reachable env stack before) (above : top.block.getHash env.crypto ≠ env.params.hashGenesisBlock)
    (connected : connectBlock (contextAt env (stack.length + 1) top.block) db before top.block =
      .ok (after, top.undo)) (now : r.publication_height = stack.length + 1)
    (member : (tx, coins) ∈ blockSpends env.crypto (stack.length + 1) before.coins top.block.vtx)
    (published : PublishedBy tx key r) (spends : SpendsRegistration tx coins key.feed.asset_id) :
    Published env (top :: stack) key r := by
  obtain ⟨i, coin, reg, input, parsed, own⟩ := spends
  obtain ⟨_, _, accepted, _⟩ := connectBlock_accepted above connected
  have credential := (accepted.credentials reached.follows.credentials).2 tx coins i coin reg member input
    parsed
  rw [own] at credential
  exact ⟨[], top, stack, rfl, now, before, after, db, reached, connected, tx, coins, i, coin, member,
    published, input, credential⟩

theorem feeds_restored (env : ChainEnv) : Restores env feedsOf (FeedsGood env) where
  genesis := fun _ => by
    refine ⟨⟨fun _ _ => ?_, fun _ _ => ?_, fun _ _ _ _ _ => ?_, fun _ _ => ?_⟩, fun _ _ => ?_⟩ <;> simp [feedsOf]
  connect := fun stack top db before after reached above connected good => by
    obtain ⟨pass, left, _, kept⟩ := connectBlock_feeds above connected (good.1.mono (Nat.le_succ _))
    rw [← left]
    refine ⟨kept.ok, fun key r found => ?_⟩
    cases known : (feedsOf before).1.get? key with
    | some old =>
      have same := kept.old key old known
      obtain rfl : old = r := Option.mem_unique same found
      exact (good.2 key old known).later
    | none =>
      obtain ⟨now, tx, coins, member, published, spends⟩ := kept.new key r found known
      exact .of_new reached above connected now member published spends
  back := fun stack top db before after view above connected good same => by
    obtain ⟨pass, left, recorded, kept⟩ := connectBlock_feeds above connected
      (good.1.mono (Nat.le_succ _))
    rw [feedsOf_revertAssets, same, ← left, ← recorded]
    exact kept.back
  coins := fun _ _ _ => rfl

theorem Reachable.feedsGood (reached : Reachable env stack view) : FeedsGood env stack (feedsOf view) :=
  (reached.replaysAs (feeds_restored env)).invariant (feeds_restored env)

/-- A run from one state to another that never disconnects the block at a height or one below it. -/
inductive StaysAbove (env : ChainEnv) (floor : Nat) (stack : List ConnectedBlock) (view : CCoinsView) :
    List ConnectedBlock → CCoinsView → Prop where
  | refl : StaysAbove env floor stack view stack view
  | connect {stack' : List ConnectedBlock} {view' next : CCoinsView} {db : ModelDb} {block : CBlock}
      {undo : CBlockUndo} (run : StaysAbove env floor stack view stack' view')
      (above : block.getHash env.crypto ≠ env.params.hashGenesisBlock)
      (connected : connectBlock (contextAt env (stack'.length + 1) block) db view' block =
        .ok (next, undo)) : StaysAbove env floor stack view (⟨block, undo⟩ :: stack') next
  | disconnect {stack' : List ConnectedBlock} {view' back : CCoinsView} {top : ConnectedBlock}
      {clean : Bool} (run : StaysAbove env floor stack view (top :: stack') view')
      (stays : floor ≤ stack'.length)
      (disconnected : disconnectBlock env.crypto (stack'.length + 1) top.block top.undo view' =
        some (back, clean)) : StaysAbove env floor stack view stack' back

theorem StaysAbove.reachable {floor : Nat} (run : StaysAbove env floor stack view stack' view')
    (reached : Reachable env stack view) : Reachable env stack' view' := by
  induction run with
  | refl => exact reached
  | connect _ above connected ih => exact ih.connect above connected
  | disconnect _ _ disconnected ih => exact ih.disconnect disconnected

theorem StaysAbove.record
    (run : StaysAbove env r.publication_height stack view stack' view')
    (reached : Reachable env stack view) (found : view.scalars.get? key = some r) :
    view'.scalars.get? key = some r := by
  induction run with
  | refl => exact found
  | connect earlier above connected ih =>
    have good := (earlier.reachable reached).feedsGood
    obtain ⟨pass, left, _, kept⟩ := connectBlock_feeds above connected (good.1.mono (Nat.le_succ _))
    exact (congrArg (fun feeds : Feeds => feeds.1.get? key) left).symm.trans (kept.old key r ih)
  | disconnect earlier stays disconnected ih =>
    -- The feeds are those that the top block found, and the record is not the top block's.
    obtain ⟨before, after, db, below, _, above, connected, left⟩ :=
      (earlier.reachable reached).replaysAs (feeds_restored env)
    obtain ⟨other, same, back⟩ := (feeds_restored env).part_disconnectBlock disconnected
    have good := below.feedsGood
    have restored := back.trans ((feeds_restored env).back _ _ db before after other above connected good
      (same.trans left))
    obtain ⟨pass, made, _, kept⟩ := connectBlock_feeds above connected (good.1.mono (Nat.le_succ _))
    have there : pass.view.scalars.get? key = some r :=
      (congrArg (fun feeds : Feeds => feeds.1.get? key) (made.trans left.symm)).trans ih
    refine (congrArg (fun feeds : Feeds => feeds.1.get? key) restored).trans ?_
    cases known : (feedsOf before).1.get? key with
    | some old => exact (kept.old key old known).symm.trans there
    | none =>
      have now := (kept.new key r there known).1
      omega

theorem FeedsOk.head_iff (ok : FeedsOk nHeight feeds) (feed : FeedKey) (n : UInt64) :
    feeds.2.get? feed = some n ↔
      1 ≤ n ∧ ∀ epoch, (feeds.1.get? ⟨feed, epoch⟩).isSome = true ↔ 1 ≤ epoch ∧ epoch ≤ n := by
  refine ⟨fun found => ⟨ok.started feed n found, fun epoch => ?_⟩, fun ⟨pos, epochs⟩ => ?_⟩
  · rw [ok.gapless, found]
    simp only [Option.some.injEq, exists_eq_left']
  · obtain ⟨head, found, _, le⟩ := (ok.gapless feed n).mp ((epochs n).mpr ⟨pos, UInt64.le_refl n⟩)
    have last := (epochs head).mp ((ok.gapless feed head).mpr
      ⟨head, found, ok.started feed head found, UInt64.le_refl head⟩)
    rw [found, UInt64.le_antisymm last.2 le]

theorem FeedsOk.no_head_iff (ok : FeedsOk nHeight feeds)
    (feed : FeedKey) : feeds.2.get? feed = none ↔ ∀ epoch, feeds.1.get? ⟨feed, epoch⟩ = none := by
  refine ⟨fun absent epoch => ?_, fun empty => ?_⟩
  · rw [← Option.not_isSome_iff_eq_none, ok.gapless, absent]
    simp
  · cases found : feeds.2.get? feed with
    | none => rfl
    | some head =>
      have first := (ok.gapless feed head).mpr
        ⟨head, found, ok.started feed head found, UInt64.le_refl head⟩
      rw [empty head] at first
      exact absurd first (by simp)

/-- In every reachable state a feed has a head exactly when its records are those of the epochs up
to it; heights do not decrease and are at most the current one; every record stems from a spend of
the asset's credential; and a record stays until its block is disconnected. -/
theorem scalar_feeds_gapless_and_fixed (env : ChainEnv) (stack : List ConnectedBlock) (view : CCoinsView)
    (reached : Reachable env stack view) :
    (∀ feed,
      (∀ n, view.scalarHeads.get? feed = some n ↔
        1 ≤ n ∧ ∀ epoch, (view.scalars.get? ⟨feed, epoch⟩).isSome = true ↔ 1 ≤ epoch ∧ epoch ≤ n) ∧
      (view.scalarHeads.get? feed = none ↔ ∀ epoch, view.scalars.get? ⟨feed, epoch⟩ = none)) ∧
    (∀ feed epoch epoch' r r', view.scalars.get? ⟨feed, epoch⟩ = some r →
      view.scalars.get? ⟨feed, epoch'⟩ = some r' → epoch ≤ epoch' →
      r.publication_height ≤ r'.publication_height) ∧
    ∀ key r, view.scalars.get? key = some r →
      r.publication_height ≤ stack.length ∧ Published env stack key r ∧
        ∀ stack' view', StaysAbove env r.publication_height stack view stack' view' →
          view'.scalars.get? key = some r := by
  obtain ⟨ok, published⟩ := reached.feedsGood
  exact ⟨fun feed => ⟨ok.head_iff feed, ok.no_head_iff feed⟩, ok.ordered, fun key r found =>
    ⟨ok.recent key r found, published key r found, fun _ _ run => run.record reached found⟩⟩

end Reachable

open RegChain in
/-- On the regtest chain an issuer has published two epochs of a feed: both records are there, the
second at a later height, and the first one stays. -/
theorem scalar_feeds_after_two_epochs : ∃ (voted : Node) (stack : List ConnectedBlock) (r r' : ScalarRecord),
    Reachable env.toChainEnv stack voted.state.coinsTip ∧
      voted.state.coinsTip.scalarHeads.get? ⟨7, 1⟩ = some 2 ∧
      voted.state.coinsTip.scalars.get? ⟨⟨7, 1⟩, 1⟩ = some r ∧
      voted.state.coinsTip.scalars.get? ⟨⟨7, 1⟩, 2⟩ = some r' ∧
      r.publication_height ≤ r'.publication_height ∧ r'.publication_height ≤ stack.length ∧
      voted.state.coinsTip.scalars.get? ⟨⟨7, 1⟩, 3⟩ = none := by
  obtain ⟨base, _, ⟨registered, issued, voted, renewed, day⟩, _⟩ := laterDays_exist
  obtain ⟨steps, _, height, chain⟩ := base.connectChain
  obtain ⟨height, chain⟩ := day.registers.step height chain
  obtain ⟨height, chain⟩ := day.issues.step height chain
  obtain ⟨height, chain⟩ := day.votes.step height chain
  obtain ⟨stack, _, reached⟩ := chain.reachable
  obtain ⟨heads, ordered, records⟩ := scalar_feeds_gapless_and_fixed env.toChainEnv stack _ reached
  obtain ⟨_, epochs⟩ := ((heads ⟨7, 1⟩).1 2).mp day.published
  obtain ⟨r, first⟩ := Option.isSome_iff_exists.mp ((epochs 1).mpr (by decide))
  obtain ⟨r', second⟩ := Option.isSome_iff_exists.mp ((epochs 2).mpr (by decide))
  have third : voted.state.coinsTip.scalars.get? ⟨⟨7, 1⟩, 3⟩ = none :=
    Option.not_isSome_iff_eq_none.mp fun there => absurd ((epochs 3).mp there) (by decide)
  exact ⟨voted, stack, r, r', reached, day.published, first, second, ordered _ _ _ _ _ first second (by decide),
    (records _ _ second).1, third⟩

end TensorCash
