import TensorCash.Validation.RegChain
import TensorCash.Validation.VkChunks

/-! Chunk outputs may change places: the registry takes the block as before while fees are shared as
before. -/

namespace TensorCash

open Checked

variable {view view' : CCoinsView} {vout vout' : List CTxOut}

def carriesChunk (out : CTxOut) : Bool := (parseZkParamsChunk out.vExt).isSome

def silent (out : CTxOut) : Bool := carriesChunk out || out.vExt.isEmpty

/-- Outputs place by place: records stay, chunks replace chunks, the rest may be recomputed. -/
def SamePlaces (vout vout' : List CTxOut) : Prop :=
  List.Forall₂ (fun o o' => o = o' ∨ (silent o = true ∧ silent o' = true ∧ carriesChunk o = carriesChunk o')) vout vout'

/-- The chunk outputs change places with each other, and all other records stay where they are. -/
structure ChunksPermuted (vout vout' : List CTxOut) : Prop where
  places : SamePlaces vout vout'
  chunks : (vout.filter carriesChunk).Perm (vout'.filter carriesChunk)

section Places

variable {out : CTxOut} {vout vout' : List CTxOut}

theorem ChunksPermuted.symm (permuted : ChunksPermuted vout vout') : ChunksPermuted vout' vout where
  places := permuted.places.flip.imp fun _ _ place =>
    place.imp Eq.symm fun ⟨first, second, kind⟩ => ⟨second, first, kind.symm⟩
  chunks := permuted.chunks.symm

theorem parseTyped_of_silent (quiet : silent out = true) {type : UInt8}
    (other : type ≠ ZK_PARAMS_CHUNK) : parseTyped type out.vExt = none := by
  rcases Bool.or_eq_true_iff.mp quiet with chunk | empty
  swap
  · rw [List.isEmpty_iff.mp empty]
    rfl
  obtain ⟨chunk, parsed⟩ := Option.isSome_iff_exists.mp chunk
  unfold parseZkParamsChunk at parsed
  obtain ⟨value, typed, _⟩ := Option.bind_eq_some_iff.mp parsed
  unfold parseTyped at typed ⊢
  obtain ⟨⟨t, v⟩, single, typed⟩ := Option.bind_eq_some_iff.mp typed
  rw [single]
  dsimp only [Option.bind_some] at typed ⊢
  split_ifs at typed with own
  rw [own]
  exact if_neg other.symm

theorem parseAssetTag_of_silent (quiet : silent out = true) : parseAssetTag out.vExt = none := by
  unfold parseAssetTag
  rw [parseTyped_of_silent quiet (by decide)]
  rfl

theorem parseIssuerReg_of_silent (quiet : silent out = true) : parseIssuerReg out.vExt = none := by
  unfold parseIssuerReg
  rw [parseTyped_of_silent quiet (by decide)]
  rfl

theorem parseIssuerScalar_of_silent (quiet : silent out = true) : parseIssuerScalar out.vExt = none := by
  unfold parseIssuerScalar
  rw [parseTyped_of_silent quiet (by decide)]
  rfl

theorem filterMap_congr₂ {α β : Type} {f g : α → Option β} {l l' : List α}
    (same : List.Forall₂ (fun a b => g b = f a) l l') : l'.filterMap g = l.filterMap f := by
  induction same with
  | nil => rfl
  | cons first _ ih => rw [List.filterMap_cons, List.filterMap_cons, first, ih]

theorem SamePlaces.filterMap_eq {β : Type} {f : CTxOut → Option β} (places : SamePlaces vout vout')
    (blind : ∀ o, silent o = true → f o = none) : vout'.filterMap f = vout.filterMap f := by
  refine filterMap_congr₂ (places.imp fun o o' place => ?_)
  rcases place with rfl | ⟨first, second, _⟩
  · rfl
  · rw [blind o first, blind o' second]

theorem SamePlaces.zipIdx (places : SamePlaces vout vout') (k : Nat) : List.Forall₂ (fun a b => a = b ∨
      (silent a.1 = true ∧ silent b.1 = true ∧ carriesChunk a.1 = carriesChunk b.1))
      (vout.zipIdx k) (vout'.zipIdx k) := by
  induction places generalizing k with
  | nil => exact .nil
  | cons place _ ih =>
    rw [List.zipIdx_cons, List.zipIdx_cons]
    exact .cons (place.imp_left (congrArg (·, k))) (ih (k + 1))

theorem SamePlaces.zip {α : Type} (places : SamePlaces vout vout') (items : List α) :
    List.Forall₂
      (fun a b =>
         a = b ∨ (silent a.2 = true ∧ silent b.2 = true ∧ carriesChunk a.2 = carriesChunk b.2))
      (items.zip vout) (items.zip vout') := by
  induction places generalizing items with
  | nil => simp
  | cons place _ ih =>
    cases items with
    | nil => exact .nil
    | cons item rest => exact .cons (place.imp_left (congrArg (item, ·))) (ih rest)

theorem SamePlaces.tagsOf_eq (places : SamePlaces vout vout') : tagsOf vout' = tagsOf vout :=
  places.filterMap_eq fun _ chunk => parseAssetTag_of_silent chunk

theorem SamePlaces.regsOf_eq (places : SamePlaces vout vout') : regsOf vout' = regsOf vout :=
  places.filterMap_eq fun _ chunk => parseIssuerReg_of_silent chunk

end Places

section Order

variable {c : Crypto} {tx : CTransaction} {pass pass' : RegistryPass} {a b : ZkParamsChunk}
  {held : Option VkChunkAccumulator}

theorem openSlot_congr (counts : a.chunk_count.toNat = b.chunk_count.toNat) :
    openSlot held a = openSlot held b := by
  rw [openSlot, openSlot, counts]

theorem payload_length_insert {parts : OrdMap Nat Bytes} {index : Nat} (data : Bytes)
    (new : parts.get? index = none) : ((parts.insert index data).entries.flatMap Prod.snd).length =
      data.length + (parts.entries.flatMap Prod.snd).length := by
  rw [((OrdMap.entries_insert_perm data new).flatMap_right Prod.snd).length_eq, List.flatMap_cons, List.length_append]

theorem SlotFits.exchange (first : SlotFits held a) (second : SlotFits (some (fillSlot held a)) b) :
    SlotFits held b ∧ SlotFits (some (fillSlot held b)) a ∧
      fillSlot (some (fillSlot held b)) a = fillSlot (some (fillSlot held a)) b := by
  have counts : b.chunk_count.toNat = a.chunk_count.toNat := second.count.symm.trans first.count
  have same : openSlot held b = openSlot held a := openSlot_congr counts
  have free := second.new
  simp only [openSlot, Option.getD_some, fillSlot] at free
  rw [OrdMap.get?_insert] at free
  split_ifs at free with indices
  have filled : fillSlot (some (fillSlot held b)) a = fillSlot (some (fillSlot held a)) b := by
    simp only [fillSlot, openSlot, Option.getD_some]
    rw [show held.getD ⟨b.chunk_count.toNat, ∅⟩ = held.getD ⟨a.chunk_count.toNat, ∅⟩ from same,
      OrdMap.insert_comm _ _ _ indices]
  have small : (fillSlot held b).payload.length ≤ (fillSlot (some (fillSlot held b)) a).payload.length := by
    have absent : (fillSlot held b).parts.get? a.chunk_index.toNat = none := by
      have new := first.new
      simp only [fillSlot, same]
      rw [OrdMap.get?_insert_of_ne _ _ _ (Ne.symm indices)]
      exact new
    have longer := payload_length_insert a.data absent
    simp only [VkChunkAccumulator.payload]
    rw [show (fillSlot (some (fillSlot held b)) a).parts =
      (fillSlot held b).parts.insert a.chunk_index.toNat a.data from rfl, longer]
    omega
  refine ⟨⟨?_, ?_, ?_⟩, ⟨?_, ?_, ?_⟩, filled⟩
  · rw [same, counts]
    exact first.count
  · rw [same]
    exact free
  · rw [filled] at small
    exact small.trans second.size
  · exact (congrArg VkChunkAccumulator.expected same).trans first.count
  · simp only [openSlot, Option.getD_some, fillSlot]
    rw [show held.getD ⟨b.chunk_count.toNat, ∅⟩ = held.getD ⟨a.chunk_count.toNat, ∅⟩ from same,
      OrdMap.get?_insert_of_ne _ _ _ (Ne.symm indices)]
    exact first.new
  · rw [filled]
    exact second.size

theorem collectChunk_exchange {regs : List IssuerReg} {s t : RegistryPass}
    (run : (collectChunk regs s a >>= fun mid => collectChunk regs mid b) = .ok t) :
    (collectChunk regs s b >>= fun mid => collectChunk regs mid a) = .ok t := by
  obtain ⟨mid, first, second⟩ := bind_eq_ok.mp run
  obtain ⟨knownA, fitsA, rfl⟩ := collectChunk_eq_ok.mp first
  obtain ⟨knownB, fitsB, rfl⟩ := collectChunk_eq_ok.mp second
  dsimp only at fitsB
  by_cases own : b.slot = a.slot
  · rw [own, OrdMap.get?_insert_self] at fitsB
    obtain ⟨fits, fits', filled⟩ := fitsA.exchange fitsB
    refine bind_eq_ok.mpr ⟨_, collectChunk_eq_ok.mpr ⟨knownB, own ▸ fits, rfl⟩, collectChunk_eq_ok.mpr ⟨knownA, ?_, ?_⟩⟩
    · dsimp only
      rw [own, OrdMap.get?_insert_self]
      exact fits'
    · dsimp only
      rw [own, OrdMap.get?_insert_self, OrdMap.get?_insert_self, OrdMap.insert_insert_self,
        OrdMap.insert_insert_self, filled]
  · rw [OrdMap.get?_insert_of_ne _ _ _ own] at fitsB
    refine bind_eq_ok.mpr ⟨_, collectChunk_eq_ok.mpr ⟨knownB, fitsB, rfl⟩, collectChunk_eq_ok.mpr ⟨knownA, ?_, ?_⟩⟩
    · dsimp only
      rw [OrdMap.get?_insert_of_ne _ _ _ (Ne.symm own)]
      exact fitsA
    · dsimp only
      rw [OrdMap.get?_insert_of_ne _ _ _ own, OrdMap.get?_insert_of_ne _ _ _ (Ne.symm own),
        OrdMap.insert_comm _ _ _ (Ne.symm own)]

variable {out o o' : CTxOut}

theorem collectExtension_chunk {chunk : ZkParamsChunk}
    (carried : parseZkParamsChunk out.vExt = some chunk) :
    collectExtension c tx pass out = collectChunk (regsOf tx.vout) pass chunk := by
  unfold collectExtension
  rw [carried]

theorem collectExtension_plain (plain : parseZkParamsChunk out.vExt = none)
    (slots : OrdMap (VkChunkKey) VkChunkAccumulator) :
    collectExtension c tx { pass with vk_chunks := slots } out =
      (collectExtension c tx pass out).map fun next => { next with vk_chunks := slots } := by
  unfold collectExtension
  rw [plain]
  cases parseTfrAnchor out.vExt with
  | some anchor =>
    simp only [require]
    split_ifs <;> rfl
  | none =>
    cases parseIcuTextChunk out.vExt with
    | some text =>
      simp only [collectText, require]
      split_ifs <;> rfl
    | none => rfl

theorem map_eq_ok {ε α β : Type} {x : Except ε α} {f : α → β} {b : β} :
    x.map f = .ok b ↔ ∃ a, x = .ok a ∧ f a = b := by
  cases x <;> simp [Except.map]

theorem exchange_chunks (chunk : carriesChunk o = true) (chunk' : carriesChunk o' = true) :
    Exchange (collectExtension c tx) o o' := by
  obtain ⟨a, carried⟩ := Option.isSome_iff_exists.mp chunk
  obtain ⟨b, carried'⟩ := Option.isSome_iff_exists.mp chunk'
  intro s t
  simp only [collectExtension_chunk carried, collectExtension_chunk carried']
  exact ⟨collectChunk_exchange, collectChunk_exchange⟩

theorem exchange_plain (plain : carriesChunk o = false) (chunk : carriesChunk o' = true) :
    Exchange (collectExtension c tx) o o' := by
  have none : parseZkParamsChunk o.vExt = none := by
    simpa [carriesChunk, Option.isSome_eq_false_iff] using plain
  obtain ⟨a, carried⟩ := Option.isSome_iff_exists.mp chunk
  intro s t
  simp only [collectExtension_chunk carried, bind_eq_ok, collectChunk_eq_ok]
  constructor
  · rintro ⟨mid, stepped, known, fits, rfl⟩
    have slots := (collectExtension_slots stepped).2
    rw [none] at slots
    rw [show mid.vk_chunks = s.vk_chunks from slots] at fits ⊢
    refine ⟨_, ⟨known, fits, rfl⟩, ?_⟩
    rw [collectExtension_plain none, stepped]
    rfl
  · rintro ⟨_, ⟨known, fits, rfl⟩, stepped⟩
    rw [collectExtension_plain none] at stepped
    obtain ⟨mid, taken, rfl⟩ := map_eq_ok.mp stepped
    have slots := (collectExtension_slots taken).2
    rw [none] at slots
    refine ⟨mid, taken, known, ?_⟩
    rw [show mid.vk_chunks = s.vk_chunks from slots]
    exact ⟨fits, rfl⟩

theorem SamePlaces.plain_eq (places : SamePlaces vout vout') :
    (vout'.filter fun o => !carriesChunk o).foldlM (collectExtension c tx) pass =
      (vout.filter fun o => !carriesChunk o).foldlM (collectExtension c tx) pass := by
  have bare : ∀ {o : CTxOut} (now : RegistryPass), silent o = true → carriesChunk o = false →
      collectExtension c tx now o = .ok now := by
    intro o now quiet plain
    have empty : o.vExt = [] := by simpa [silent, plain] using quiet
    unfold collectExtension
    rw [empty]
    rfl
  induction places generalizing pass with
  | nil => rfl
  | @cons o o' _ _ place _ ih =>
    rcases place with rfl | ⟨first, second, kind⟩
    · cases sort : carriesChunk o with
      | true =>
        simp only [List.filter_cons, sort, Bool.not_true, Bool.false_eq_true, if_false]
        exact ih
      | false =>
        simp only [List.filter_cons, sort, Bool.not_false, if_true, List.foldlM_cons]
        exact congrArg _ (funext fun now => ih)
    · cases sort : carriesChunk o with
      | true =>
        rw [sort] at kind
        simp only [List.filter_cons, sort, ← kind, Bool.not_true, Bool.false_eq_true, if_false]
        exact ih
      | false =>
        have sort' := kind.symm.trans sort
        simp only [List.filter_cons, sort, sort', Bool.not_false, if_true, List.foldlM_cons]
        rw [bare pass first sort, bare pass second sort']
        exact ih

theorem collectExtensions_permuted (permuted : ChunksPermuted vout vout') :
    vout.foldlM (collectExtension c tx) pass = .ok pass' ↔
      vout'.foldlM (collectExtension c tx) pass = .ok pass' := by
  have kinds : ∀ outs : List CTxOut, outs.foldlM (collectExtension c tx) pass = .ok pass' ↔
      (outs.filter carriesChunk ++ outs.filter fun o => !carriesChunk o).foldlM
        (collectExtension c tx) pass = .ok pass' := fun outs =>
    foldlM_kinds fun _ _ _ _ plain chunk => exchange_plain plain chunk
  rw [kinds vout, kinds vout', foldlM_append_eq_ok, foldlM_append_eq_ok]
  refine exists_congr fun mid => and_congr (foldlM_perm permuted.chunks fun o member o' member' => ?_)
    (by rw [permuted.places.plain_eq])
  exact exchange_chunks (List.mem_filter.mp member).2 (List.mem_filter.mp member').2

end Order

def COutPoint.renamed (ρ : Uint256 → Uint256) (o : COutPoint) : COutPoint := { o with hash := ρ o.hash }

def AssetRegistryEntry.renamed (ρ : Uint256 → Uint256) (e : AssetRegistryEntry) : AssetRegistryEntry :=
  { e with
    icu_outpoint := e.icu_outpoint.renamed ρ
    compliance_root_history := e.compliance_root_history.map fun h => { h with txid := ρ h.txid }
    rotation_history := e.rotation_history.map fun s => { s with rotation_txid := ρ s.rotation_txid } }

open AssetRegistryEntry (renamed)

/-- Passes that differ in the names of transactions, the coins and the way back. -/
structure Alike (ρ : Uint256 → Uint256) (pass pass' : RegistryPass) : Prop where
  policies : ∀ id, pass'.view.policies.get? id = (pass.view.policies.get? id).map (renamed ρ)
  tickers : pass'.view.tickers = pass.view.tickers
  vks : pass'.view.vks = pass.view.vks
  icus : pass'.view.icus = pass.view.icus
  scalars : pass'.view.scalars = pass.view.scalars
  scalarHeads : pass'.view.scalarHeads = pass.view.scalarHeads
  vk_chunks : pass'.vk_chunks = pass.vk_chunks
  icu_payloads : pass'.icu_payloads = pass.icu_payloads
  icu_payload_metadata : pass'.icu_payload_metadata = pass.icu_payload_metadata
  zk_vk_installs : pass'.zk_vk_installs = pass.zk_vk_installs
  undone : pass'.undo.reg_undo.map RegUndoEntry.asset_id = pass.undo.reg_undo.map RegUndoEntry.asset_id

/-- A transaction with its chunks reordered and the new names; a flagged rotation keeps its
proposal. -/
structure Recomputed (c : Crypto) (ρ : Uint256 → Uint256) (tx tx' : CTransaction) : Prop where
  version : tx'.version = tx.version
  inputs : List.Forall₂ (fun i i' => i'.prevout = i.prevout.renamed ρ) tx.vin tx'.vin
  outputs : ChunksPermuted tx.vout tx'.vout
  txid : tx'.txid c = ρ (tx.txid c)
  proposal : isRotationTx tx = true → computeRotationProposalHash c tx' = computeRotationProposalHash c tx

section Names

variable {c : Crypto} {ctx : BlockContext} {ρ : Uint256 → Uint256} {tx tx' : CTransaction}
  {coins : List Coin} {spent : List (Uint256 × Int)} {pass pass' : RegistryPass}
  {p : PendingIssuerReg} {prev : Option AssetRegistryEntry}

theorem resolveTicker_renamed (params : Params) (tickers : view'.tickers = view.tickers)
    (id : Uint256) (ticker : Bytes) :
    resolveTicker params view' spent id (prev.map (renamed ρ)) ticker =
      resolveTicker params view spent id prev ticker := by
  unfold resolveTicker
  rw [tickers]
  cases prev <;> rfl

theorem resolveDecimals_renamed (decimals : UInt8) :
    resolveDecimals (prev.map (renamed ρ)) decimals = resolveDecimals prev decimals := by
  cases prev <;> rfl

theorem checkRegDelegate_renamed (reg : IssuerReg) (policies : ∀ id, view'.policies.get? id =
      (view.policies.get? id).map (renamed ρ)) : checkRegDelegate view' (prev.map (renamed ρ)) reg =
      checkRegDelegate view prev reg := by
  have source : regDelegateSource view' reg.asset_id reg =
      (regDelegateSource view reg.asset_id reg).map (renamed ρ) := by
    unfold regDelegateSource
    split_ifs
    · exact policies _
    · rfl
  have same : validateDelegateRegistration reg.asset_id reg (prev.map (renamed ρ))
      ((regDelegateSource view reg.asset_id reg).map (renamed ρ)) =
      validateDelegateRegistration reg.asset_id reg prev (regDelegateSource view reg.asset_id reg) := by
    unfold validateDelegateRegistration
    cases prev <;> cases regDelegateSource view reg.asset_id reg <;> simp [renamed]
  unfold checkRegDelegate
  rw [source, same]

theorem bringsIcuText_renamed (reg : IssuerReg) :
    bringsIcuText (prev.map (renamed ρ)) reg = bringsIcuText prev reg := by
  cases prev <;> rfl

theorem Recomputed.ballotUnits_eq (recomputed : Recomputed c ρ tx tx') (id : Uint256) :
    ballotUnits tx' coins id = ballotUnits tx coins id := by
  unfold ballotUnits
  refine congrArg List.sum (filterMap_congr₂ ((recomputed.outputs.places.zip coins).imp ?_))
  rintro ⟨coin, o⟩ ⟨coin', o'⟩ (⟨⟨⟩⟩ | ⟨first, second, _⟩)
  · rfl
  · dsimp only at first second ⊢
    rw [parseAssetTag_of_silent first, parseAssetTag_of_silent second]
    cases parseAssetTag coin.out.vExt <;> cases parseAssetTag coin'.out.vExt <;> rfl

theorem Recomputed.assetDelta_eq (recomputed : Recomputed c ρ tx tx') (outs : List CTxOut) (id : Uint256) :
    assetDelta outs tx'.vout id = assetDelta outs tx.vout id := by
  rw [assetDelta, assetDelta, recomputed.outputs.places.tagsOf_eq]

theorem Recomputed.checkRegHistory_eq (recomputed : Recomputed c ρ tx tx') (reg : IssuerReg) :
    checkRegHistory ctx tx' coins (prev.map (renamed ρ)) reg = checkRegHistory ctx tx coins prev reg := by
  cases prev with
  | none => rfl
  | some prev =>
    simp only [checkRegHistory, Option.map_some, checkRegUpdate, recomputed.ballotUnits_eq, recomputed.assetDelta_eq]
    rfl

theorem rotationHistory_renamed (txid : Uint256) (prev : AssetRegistryEntry) (reg : IssuerReg) :
    rotationHistory ctx (ρ txid) (prev.renamed ρ) reg =
      (rotationHistory ctx txid prev reg).map fun s => { s with rotation_txid := ρ s.rotation_txid } := by
  by_cases newer : prev.policy_epoch < reg.policy_epoch
  · simp [rotationHistory, renamed, newer, List.map_drop]
  · simp [rotationHistory, renamed, newer]

theorem registeredEntry_renamed (txid : Uint256) (ticker : Bytes) (decimals : UInt8) :
    registeredEntry ctx (ρ txid) p (prev.map (renamed ρ)) ticker decimals =
      (registeredEntry ctx txid p prev ticker decimals).renamed ρ := by
  cases prev with
  | none => rfl
  | some prev =>
    simp only [registeredEntry, Option.map_some, Option.getD_some, rotationHistory_renamed]
    rfl

theorem deriveHeight_renamed (e : AssetRegistryEntry) :
    deriveActiveRootActivationHeight (e.renamed ρ) = deriveActiveRootActivationHeight e := by
  -- The search compares roots and answers with a height; names are in neither.
  unfold deriveActiveRootActivationHeight
  simp only [renamed, ← List.map_reverse, List.find?_map]
  split_ifs
  · rfl
  · rfl
  · split
    · next h eq =>
      obtain ⟨found, same, rfl⟩ := Option.map_eq_some_iff.mp eq
      rw [show e.compliance_root_history.reverse.find? (fun h => h.root_commit = e.compliance_root_commit) = _ from same]
    · next eq =>
      rw [show e.compliance_root_history.reverse.find? (fun h => h.root_commit = e.compliance_root_commit) = _ from
        Option.map_eq_none_iff.mp eq]

theorem applyComplianceRootUpdate_renamed (now : AssetRegistryEntry) (root vk : Uint256) (height : Nat)
    (txid : Uint256) : applyComplianceRootUpdate (now.renamed ρ) (prev.map (renamed ρ)) root vk height
      (ρ txid) = (applyComplianceRootUpdate now prev root vk height txid).renamed ρ := by
  unfold applyComplianceRootUpdate
  by_cases zero : root = 0
  · rw [if_pos zero, if_pos zero]
    cases prev with
    | none => rfl
    | some prev =>
      by_cases cleared : prev.compliance_root_commit = 0
      · simp [renamed, cleared]
      · simp [renamed, cleared]
  · rw [if_neg zero, if_neg zero]
    cases prev with
    | none => simp [renamed, List.map_drop]
    | some prev =>
      by_cases same : prev.compliance_root_commit = root
      · subst same
        have height := deriveHeight_renamed (ρ := ρ) prev
        simp only [renamed] at height
        simp [renamed, height]
      · simp [renamed, same, List.map_drop]

theorem Recomputed.newEntry_eq (recomputed : Recomputed ctx.env.crypto ρ tx tx') (ticker : Bytes)
    (decimals : UInt8) : newEntry ctx tx' p (prev.map (renamed ρ)) ticker decimals =
      (newEntry ctx tx p prev ticker decimals).renamed ρ := by
  unfold newEntry
  dsimp only
  rw [recomputed.txid, registeredEntry_renamed]
  unfold withCompliance
  split_ifs
  · rfl
  · rw [← applyComplianceRootUpdate_renamed]
    rfl

end Names

section Passes

variable {c : Crypto} {ctx : BlockContext} {ρ : Uint256 → Uint256} {tx tx' : CTransaction}
  {coins : List Coin} {spent : List (Uint256 × Int)} {pass pass' : RegistryPass}
  {p : PendingIssuerReg} {reg : IssuerReg}

theorem collectExtension_tracks (alike : Alike ρ pass pass') (out : CTxOut) :
    Tracks (Alike ρ) (collectExtension c tx pass out) (collectExtension c tx pass' out) := by
  unfold collectExtension
  split
  · intro next run
    obtain ⟨known, fits, rfl⟩ := collectChunk_eq_ok.mp run
    refine ⟨_, collectChunk_eq_ok.mpr ⟨known, alike.vk_chunks ▸ fits, rfl⟩, ?_⟩
    exact { alike with vk_chunks := by dsimp only; rw [alike.vk_chunks] }
  · exact .seq rfl fun _ => .seq rfl fun _ => .ok alike
  · unfold collectText
    dsimp only
    rw [alike.icu_payloads, alike.icu_payload_metadata]
    refine .seq rfl fun _ => .seq rfl fun _ => .seq rfl fun _ => .seq rfl fun _ => .ok ?_
    exact { alike with icu_payloads := rfl, icu_payload_metadata := rfl }
  · exact .ok alike

theorem publishScalar_tracks (alike : Alike ρ pass pass') (out : CTxOut) :
    Tracks (Alike ρ) (publishScalar ctx spent pass out) (publishScalar ctx spent pass' out) := by
  have known : ∀ id, pass'.view.policies.contains id = pass.view.policies.contains id := by
    intro id
    rw [OrdMap.contains, OrdMap.contains, alike.policies, Option.isSome_map]
  unfold publishScalar
  split
  · exact .ok alike
  · dsimp only
    rw [known, alike.scalars, alike.scalarHeads]
    split
    · exact .error
    · exact .ok { alike with scalars := rfl, scalarHeads := rfl }

theorem publishScalars_tracks (alike : Alike ρ pass pass') (vout : List CTxOut) :
    Tracks (Alike ρ) (publishScalars ctx spent pass vout) (publishScalars ctx spent pass' vout) := by
  unfold publishScalars
  split_ifs
  · exact Tracks.foldlM_same (fun _ _ out holds => publishScalar_tracks holds out) vout alike
  · exact .ok alike

theorem installRegVk_tracks (alike : Alike ρ pass pass') :
    Tracks (Alike ρ) (installRegVk c pass reg) (installRegVk c pass' reg) := by
  unfold installRegVk
  split_ifs
  · unfold installVk
    dsimp only
    rw [alike.vks, alike.vk_chunks, alike.zk_vk_installs]
    refine .seq rfl fun _ => ?_
    split
    · exact .ok alike
    · exact .seq rfl fun _ => .seq rfl fun _ => .ok
        { alike with vk_chunks := rfl, zk_vk_installs := rfl }
    · exact .error
    · refine .seq rfl fun _ => .seq rfl fun _ => .seq rfl fun _ => .ok ?_
      exact { alike with vks := rfl, vk_chunks := rfl, zk_vk_installs := rfl }
  · exact .ok alike

theorem installRegIcu_tracks (alike : Alike ρ pass pass') (env : ChainEnv)
    (prev : Option AssetRegistryEntry) : Tracks (Alike ρ) (installRegIcu env pass prev reg)
      (installRegIcu env pass' (prev.map (renamed ρ)) reg) := by
  unfold installRegIcu
  rw [bringsIcuText_renamed]
  split_ifs
  · unfold installIcu
    dsimp only
    rw [alike.icu_payloads, alike.icu_payload_metadata, alike.icus]
    exact .seq rfl fun _ => .ok
      { alike with icus := rfl, icu_payloads := rfl, icu_payload_metadata := rfl }
  · exact .ok alike

theorem Alike.bound (alike : Alike ρ pass pass') (reg : IssuerReg) (prev : Option AssetRegistryEntry) :
    let noted (pass : RegistryPass) (prev : Option AssetRegistryEntry) : RegistryPass :=
      { pass with
        undo := { pass.undo with reg_undo := pass.undo.reg_undo ++ [⟨reg.asset_id, prev⟩] }
        view := bindTicker prev reg pass.view }
    Alike ρ (noted pass prev) (noted pass' (prev.map (renamed ρ))) := by
  intro noted
  have ticker : ((prev.map (renamed ρ)).map AssetRegistryEntry.ticker).getD [] =
      (prev.map AssetRegistryEntry.ticker).getD [] := by
    cases prev <;> rfl
  have undone : (noted pass' (prev.map (renamed ρ))).undo.reg_undo.map RegUndoEntry.asset_id =
      (noted pass prev).undo.reg_undo.map RegUndoEntry.asset_id := by
    simp only [noted, List.map_append, alike.undone, List.map_cons]
  dsimp only [noted, bindTicker]
  rw [ticker]
  split_ifs
  · exact { alike with tickers := congrArg (·.insert ⟨reg.ticker⟩ reg.asset_id) alike.tickers, undone }
  · exact { alike with undone }

theorem registerAsset_tracks (recomputed : Recomputed ctx.env.crypto ρ tx tx') (alike : Alike ρ pass pass') :
    Tracks (Alike ρ) (registerAsset ctx tx coins spent pass p) (registerAsset ctx tx' coins spent pass' p) := by
  unfold registerAsset
  dsimp only
  rw [alike.policies, resolveTicker_renamed _ alike.tickers, resolveDecimals_renamed, Option.isSome_map]
  refine .seq rfl fun _ => .seq rfl fun ⟨ticker, sponsored⟩ => .seq rfl fun decimals => .seq rfl fun _ => ?_
  refine .bind (installRegVk_tracks (alike.bound p.reg _)) fun pass₁ pass₁' alike₁ => ?_
  refine .seq (checkRegDelegate_renamed _ alike₁.policies) fun _ => ?_
  refine .bind (installRegIcu_tracks alike₁ _ _) fun pass₂ pass₂' alike₂ => ?_
  refine .seq (recomputed.checkRegHistory_eq _) fun _ => .ok ?_
  rw [recomputed.newEntry_eq]
  refine { alike₂ with policies := fun id => ?_ }
  dsimp only
  rw [OrdMap.get?_insert, OrdMap.get?_insert]
  split_ifs
  · rfl
  · exact alike₂.policies id

theorem checkKeywrap_renamed (alike : Alike ρ pass pass') (out : CTxOut) :
    checkKeywrap c pass'.view out = checkKeywrap c pass.view out := by
  unfold checkKeywrap
  cases parseAssetTag out.vExt with
  | none => rfl
  | some tag =>
    dsimp only
    rw [alike.policies]
    cases pass.view.policies.get? tag.id <;> rfl

theorem SamePlaces.keywraps (places : SamePlaces vout vout') {u : Unit}
    (wrapped : vout.forM (checkKeywrap c view) = .ok u) :
    vout'.forM (checkKeywrap c view) = .ok u := by
  rw [forM_eq_ok] at wrapped ⊢
  intro o' member
  obtain ⟨o, inside, place⟩ : ∃ o ∈ vout, o = o' ∨ silent o' = true := by
    induction places with
    | nil => cases member
    | cons place _ ih =>
      rcases List.mem_cons.mp member with rfl | later
      · exact ⟨_, List.mem_cons_self, place.imp_right fun quiet => quiet.2.1⟩
      · obtain ⟨o, inside, place⟩ := ih (fun o inside => wrapped o (List.mem_cons_of_mem _ inside)) later
        exact ⟨o, List.mem_cons_of_mem _ inside, place⟩
  rcases place with rfl | quiet
  · exact wrapped o inside
  · unfold checkKeywrap
    rw [parseAssetTag_of_silent quiet]

theorem forall₂_zip {α β γ : Type} {related : α → β → Prop} {l : List α} {l' : List β}
    (alike : List.Forall₂ related l l') (items : List γ) :
    List.Forall₂ (fun a b => related a.1 b.1 ∧ a.2 = b.2) (l.zip items) (l'.zip items) := by
  induction alike generalizing items with
  | nil => simp
  | cons first _ ih =>
    cases items with
    | nil => simp
    | cons item rest => exact .cons ⟨first, rfl⟩ (ih rest)

theorem renamed_inj (injective : Function.Injective ρ) {o o' : COutPoint} :
    o.renamed ρ = o'.renamed ρ ↔ o = o' := by
  constructor
  · intro same
    cases o
    cases o'
    simp only [COutPoint.renamed, COutPoint.mk.injEq] at same ⊢
    exact ⟨injective same.1, same.2⟩
  · rintro rfl
    rfl

theorem Recomputed.icuSpent_eq (recomputed : Recomputed c ρ tx tx')
    (injective : Function.Injective ρ) (alike : Alike ρ pass pass') :
    icuSpent pass'.view (tx'.vin.zip coins) = icuSpent pass.view (tx.vin.zip coins) := by
  unfold icuSpent
  refine filterMap_congr₂ ((forall₂_zip recomputed.inputs coins).imp ?_)
  rintro ⟨i, coin⟩ ⟨i', coin'⟩ ⟨named, rfl⟩
  dsimp only at named ⊢
  rw [named]
  congr 1
  funext reg
  rw [alike.policies]
  cases pass.view.policies.get? reg.asset_id with
  | none => rfl
  | some cur => simp only [Option.map_some, Option.any_some, renamed, renamed_inj injective]

theorem Recomputed.checkReregistration_eq (recomputed : Recomputed c ρ tx tx')
    (injective : Function.Injective ρ) (alike : Alike ρ pass pass') (id : Uint256) :
    checkReregistration pass'.view tx' id = checkReregistration pass.view tx id := by
  unfold checkReregistration
  rw [alike.policies]
  cases pass.view.policies.get? id with
  | none => rfl
  | some cur =>
    have same : (tx'.vin.any fun i => decide (i.prevout = cur.icu_outpoint.renamed ρ)) =
        tx.vin.any fun i => decide (i.prevout = cur.icu_outpoint) := by
      have inputs := recomputed.inputs
      generalize tx.vin = ins, tx'.vin = ins' at inputs ⊢
      induction inputs with
      | nil => rfl
      | cons named _ ih =>
        rw [List.any_cons, List.any_cons, named, ih]
        simp only [renamed_inj injective]
    simp only [Option.map_some, Option.all_some, renamed, same]

theorem checkBond_renamed (alike : Alike ρ pass pass') (pending : List PendingIssuerReg)
    (entry : Uint256 × Int) : checkBond pass'.view pending entry = checkBond pass.view pending entry := by
  unfold checkBond
  dsimp only
  rw [alike.policies]
  cases pass.view.policies.get? entry.1 with
  | none => rfl
  | some cur =>
    simp only [Option.map_some]
    split <;> rfl

theorem Recomputed.checkRotation_eq (recomputed : Recomputed c ρ tx tx') (alike : Alike ρ pass pass') :
    checkRotation c pass'.view tx' = checkRotation c pass.view tx := by
  have flagged : isRotationTx tx' = isRotationTx tx := by
    unfold isRotationTx
    rw [recomputed.version]
  have head : (tx'.vout.head?.bind fun o => parseIssuerReg o.vExt) =
      tx.vout.head?.bind fun o => parseIssuerReg o.vExt := by
    have places := recomputed.outputs.places
    generalize tx.vout = outs, tx'.vout = outs' at places ⊢
    cases places with
    | nil => rfl
    | cons place _ =>
      rcases place with rfl | ⟨first, second, _⟩
      · rfl
      · simp only [List.head?_cons, Option.bind_some, parseIssuerReg_of_silent first, parseIssuerReg_of_silent second]
  have tail : tagsOf tx'.vout.tail = tagsOf tx.vout.tail := by
    have places := recomputed.outputs.places
    generalize tx.vout = outs, tx'.vout = outs' at places ⊢
    cases places with
    | nil => rfl
    | cons _ rest => exact SamePlaces.tagsOf_eq rest
  unfold checkRotation
  rw [flagged, recomputed.inputs.length_eq.symm, head, tail]
  split_ifs with rotates
  · dsimp only
    rw [recomputed.proposal rotates.1]
    congr 1
    funext reg
    rw [alike.policies]
    cases pass.view.policies.get? reg.asset_id <;> rfl
  · rfl

theorem Recomputed.pendingRegs_eq (recomputed : Recomputed c ρ tx tx') : pendingRegs tx' = pendingRegs tx := by
  unfold pendingRegs
  refine filterMap_congr₂ ((recomputed.outputs.places.zipIdx 0).imp ?_)
  rintro ⟨o, i⟩ ⟨o', i'⟩ (⟨⟨⟩⟩ | ⟨first, second, _⟩)
  · rfl
  · dsimp only at first second ⊢
    rw [parseIssuerReg_of_silent first, parseIssuerReg_of_silent second]
    rfl

theorem Recomputed.collectExtension_eq (recomputed : Recomputed c ρ tx tx') :
    collectExtension c tx' = collectExtension c tx := by
  funext pass out
  unfold collectExtension
  rw [recomputed.outputs.places.regsOf_eq, recomputed.outputs.places.tagsOf_eq]

theorem Recomputed.publishScalars_eq (recomputed : Recomputed c ρ tx tx') :
    publishScalars ctx spent pass tx'.vout = publishScalars ctx spent pass tx.vout := by
  have blind : ∀ {o : CTxOut} (now : RegistryPass), silent o = true → publishScalar ctx spent now o = .ok now := by
    intro o now quiet
    unfold publishScalar
    rw [parseIssuerScalar_of_silent quiet]
  have places := recomputed.outputs.places
  unfold publishScalars
  generalize tx.vout = outs, tx'.vout = outs' at places ⊢
  split_ifs
  · induction places generalizing pass with
    | nil => rfl
    | cons place _ ih =>
      rw [List.foldlM_cons, List.foldlM_cons]
      rcases place with rfl | ⟨first, second, _⟩
      · exact congrArg _ (funext fun now => ih)
      · rw [blind pass first, blind pass second]
        exact ih
  · rfl

theorem connectAssetTx_tracks (recomputed : Recomputed ctx.env.crypto ρ tx tx')
    (injective : Function.Injective ρ) (alike : Alike ρ pass pass') :
    Tracks (Alike ρ) (connectAssetTx ctx pass (tx, coins)) (connectAssetTx ctx pass' (tx', coins)) := by
  unfold connectAssetTx
  dsimp only
  -- The chunks come in another order, everything else as before.
  have collects : Tracks (Alike ρ) (tx.vout.foldlM (collectExtension ctx.env.crypto tx) pass)
      (tx'.vout.foldlM (collectExtension ctx.env.crypto tx') pass') := by
    intro next run
    obtain ⟨next', run', alike'⟩ := Tracks.foldlM_same
      (fun _ _ out holds => collectExtension_tracks holds out) tx.vout alike next run
    refine ⟨next', ?_, alike'⟩
    rw [recomputed.collectExtension_eq]
    exact (collectExtensions_permuted recomputed.outputs).mp run'
  refine .bind collects fun pass₁ pass₁' alike₁ => ?_
  have wraps : Tracks (fun _ _ => True) (tx.vout.forM (checkKeywrap ctx.env.crypto pass₁.view))
      (tx'.vout.forM (checkKeywrap ctx.env.crypto pass₁'.view)) := by
    intro u wrapped
    rw [show checkKeywrap ctx.env.crypto pass₁'.view = checkKeywrap ctx.env.crypto pass₁.view from
      funext (checkKeywrap_renamed alike₁)]
    exact ⟨u, recomputed.outputs.places.keywraps wrapped, trivial⟩
  refine .bind wraps fun _ _ _ => ?_
  rw [recomputed.icuSpent_eq injective alike₁, recomputed.publishScalars_eq, recomputed.pendingRegs_eq]
  refine .bind (publishScalars_tracks alike₁ _) fun pass₂ pass₂' alike₂ => ?_
  rw [show checkReregistration pass₂'.view tx' = checkReregistration pass₂.view tx from
      funext (recomputed.checkReregistration_eq injective alike₂),
    show checkBond pass₂'.view (pendingRegs tx) = checkBond pass₂.view (pendingRegs tx) from
      funext (checkBond_renamed alike₂ _), recomputed.checkRotation_eq alike₂]
  refine .seq rfl fun _ => .seq rfl fun _ => .seq rfl fun _ => ?_
  exact Tracks.foldlM_same (fun _ _ q holds => registerAsset_tracks (p := q) recomputed holds) _ alike₂

end Passes

section BlockOrder

variable {c : Crypto} {ctx : BlockContext} {ρ : Uint256 → Uint256}
  {txs txs' : List (CTransaction × List Coin)} {pass pass' : RegistryPass}

def BlockRecomputed (c : Crypto) (ρ : Uint256 → Uint256) (txs txs' : List (CTransaction × List Coin)) :
    Prop := List.Forall₂ (fun t t' => Recomputed c ρ t.1 t'.1 ∧ t'.2 = t.2) txs txs'

theorem BlockRecomputed.supplyDelta_eq (recomputed : BlockRecomputed c ρ txs txs') (id : Uint256) :
    supplyDelta txs' id = supplyDelta txs id := by
  unfold supplyDelta
  congr 2
  induction recomputed with
  | nil => rfl
  | @cons t t' _ _ first _ ih =>
    obtain ⟨tx, coins⟩ := t
    obtain ⟨tx', coins'⟩ := t'
    obtain ⟨recomputed, rfl⟩ := first
    rw [List.map_cons, List.map_cons, ih]
    exact congrArg (· :: _) (recomputed.assetDelta_eq _ id)

theorem BlockRecomputed.movedAssets_eq (recomputed : BlockRecomputed c ρ txs txs') :
    movedAssets txs' = movedAssets txs := by
  unfold movedAssets
  congr 1
  induction recomputed with
  | nil => rfl
  | @cons t t' _ _ first _ ih =>
    obtain ⟨tx, coins⟩ := t
    obtain ⟨tx', coins'⟩ := t'
    obtain ⟨recomputed, rfl⟩ := first
    rw [List.flatMap_cons, List.flatMap_cons, ih]
    dsimp only
    rw [recomputed.outputs.places.tagsOf_eq]

theorem settleSupply_tracks (recomputed : BlockRecomputed c ρ txs txs') (alike : Alike ρ pass pass')
    (id : Uint256) : Tracks (Alike ρ) (settleSupply txs pass id) (settleSupply txs' pass' id) := by
  have listed : (pass'.undo.reg_undo.any fun u => decide (u.asset_id = id)) =
      pass.undo.reg_undo.any fun u => decide (u.asset_id = id) := by
    have both := congrArg (List.any · fun i => decide (i = id)) alike.undone
    simpa only [List.any_map, Function.comp_def] using both
  unfold settleSupply
  rw [alike.policies]
  cases pass.view.policies.get? id with
  | none => exact .ok alike
  | some e =>
    dsimp only [Option.map_some]
    rw [recomputed.supplyDelta_eq, listed]
    refine .seq rfl fun _ => .ok { alike with policies := fun j => ?_, undone := ?_ }
    · dsimp only
      rw [OrdMap.get?_insert, OrdMap.get?_insert, alike.policies]
      split_ifs <;> rfl
    · dsimp only
      split_ifs
      · exact alike.undone
      · rw [List.map_append, List.map_append, alike.undone]
        rfl

/-- The registry takes the recomputed block, from like views and the same shares, with the same
keys. -/
theorem connectAssets_tracks (recomputed : BlockRecomputed ctx.env.crypto ρ txs txs')
    (injective : Function.Injective ρ) {undo undo' : CBlockUndo}
    (alike : Alike ρ { view, undo } { view := view', undo := undo' })
    (shares : undo'.fee_undo = undo.fee_undo) :
    Tracks (fun r r' => r'.1.vks = r.1.vks) (connectAssets ctx txs view undo)
      (connectAssets ctx txs' view' undo') := by
  have credited : Alike ρ { view := creditFees undo.fee_undo view, undo }
      { view := creditFees undo'.fee_undo view', undo := undo' } := by
    refine { alike with policies := fun id => ?_ }
    dsimp only
    rw [creditFees_get?, creditFees_get?, shares, show view'.policies.get? id = _ from alike.policies id]
    cases view.policies.get? id <;> rfl
  refine .mapError ?_
  unfold connectRegistry
  dsimp only
  have connects : Tracks (Alike ρ) (txs.foldlM (connectAssetTx ctx)
        { view := creditFees undo.fee_undo view, undo })
      (txs'.foldlM (connectAssetTx ctx) { view := creditFees undo'.fee_undo view', undo := undo' }) := by
    refine Tracks.foldlM (fun now now' t t' holds first => ?_) recomputed credited
    obtain ⟨tx, coins⟩ := t
    obtain ⟨tx', coins'⟩ := t'
    obtain ⟨one, rfl⟩ := first
    exact connectAssetTx_tracks one injective holds
  refine .bind connects fun pass pass' holds => ?_
  rw [recomputed.movedAssets_eq]
  refine .bind (Tracks.foldlM_same (fun _ _ id holds => settleSupply_tracks recomputed holds id) _ holds)
    fun final final' ends => ?_
  rw [ends.vk_chunks]
  exact .seq rfl fun _ => .ok ends.vks

theorem Recomputed.symm {σ : Equiv.Perm Uint256} {tx tx' : CTransaction}
    (recomputed : Recomputed c σ tx tx') : Recomputed c σ.symm tx' tx where
  version := recomputed.version.symm
  inputs := recomputed.inputs.flip.imp fun i' i named => by
    rw [named]
    simp only [COutPoint.renamed, Equiv.symm_apply_apply]
  outputs := recomputed.outputs.symm
  txid := by rw [recomputed.txid, Equiv.symm_apply_apply]
  proposal rotates := by
    have flagged : isRotationTx tx = true := by
      unfold isRotationTx at rotates ⊢
      rwa [recomputed.version] at rotates
    exact (recomputed.proposal flagged).symm

theorem BlockRecomputed.symm {σ : Equiv.Perm Uint256} (recomputed : BlockRecomputed c σ txs txs') :
    BlockRecomputed c σ.symm txs' txs :=
  List.Forall₂.imp (fun _ _ both => ⟨both.1.symm, both.2.symm⟩) (List.Forall₂.flip recomputed)

theorem renamed_symm (σ : Equiv.Perm Uint256) (e : AssetRegistryEntry) : (e.renamed σ).renamed σ.symm = e := by
  simp [renamed, COutPoint.renamed, Function.comp_def]

def MentionsKept (ρ : Uint256 → Uint256) (view : CCoinsView) : Prop :=
  ∀ id e, view.policies.get? id = some e → e.renamed ρ = e

theorem alike_of_kept (kept : MentionsKept ρ view)
    (coins coins' : OrdMap COutPoint Coin) {vtxundo vtxundo' : List (List Coin)} (shares : List FeeUndoEntry) :
    Alike ρ { view := { view with coins }, undo := { vtxundo, fee_undo := shares } }
      { view := { view with coins := coins' }, undo := { vtxundo := vtxundo', fee_undo := shares } } := by
  refine ⟨fun id => ?_, rfl, rfl, rfl, rfl, rfl, rfl, rfl, rfl, rfl, rfl⟩
  cases known : view.policies.get? id with
  | none => simp
  | some e => simp [kept id e known]

end BlockOrder

def coinsStage (ctx : BlockContext) (db : ModelDb) (view : CCoinsView) (block : CBlock) :
    Except Failure CoinsPass := do
  (checkBlock ctx.env.toNodeEnv true true true block).mapError fatalIfMutated
  checkProofVersion ctx.env.toNodeEnv db ctx.nHeight block.pow
  require (block.hashPrevBlock = view.bestBlock) (.error "UTXO tip mismatch before ConnectBlock")
  checkBlockModelRegistered ctx.env.crypto db block
  checkRotationLimit block
  checkNoOverwrite ctx.env.crypto view.coins block
  block.vtx.foldlM (connectTx ctx db view) { coins := view.coins }

/-- Keys and chunks in a block: a key that is not stored at its registration's turn is assembled
from the chunks beside it and stored, and every chunk goes to such a registration. -/
def KeysAssembled (ctx : BlockContext) (view : CCoinsView) (block : CBlock) (next : CCoinsView) : Prop :=
  let txs := blockSpends ctx.env.crypto ctx.nHeight view.coins block.vtx
  ∃ start final, start.view.vks = view.vks ∧
    (∀ tx coins p, (tx, coins) ∈ txs → p ∈ pendingRegs tx → p.reg.kyc_flags ≠ 0 →
      Nonempty (Turn ctx txs tx coins p start final) ∧ ∀ t : Turn ctx txs tx coins p start final,
        t.turn.view.vks.get? p.reg.zk_vk_commitment = none → ∃ payload,
          Assembled ctx.env.crypto (slotChunks tx.vout p.reg.slot) p.reg.zk_vk_commitment payload ∧
          next.vks.get? p.reg.zk_vk_commitment = some payload) ∧ ∀ tx ∈ block.vtx, ∀ chunk ∈ chunksOf tx.vout,
      ∃ p ∈ pendingRegs tx, chunk.slot = p.reg.slot ∧ p.reg.kyc_flags ≠ 0

section Accepted

variable {ctx : BlockContext} {db : ModelDb} {view next : CCoinsView} {block block' : CBlock}
  {undo : CBlockUndo} {pass pass' : CoinsPass} {blockHash' : Uint256} {ρ : Uint256 → Uint256}

theorem connectBlock_of_coinsStage (above : ctx.blockHash ≠ ctx.env.params.hashGenesisBlock)
    (coins : coinsStage ctx db view block = .ok pass) : connectBlock ctx db view block = (do
      let (view, undo) ← connectAssets ctx pass.spent { view with coins := pass.coins }
        { vtxundo := pass.spent.tail.map Prod.snd, fee_undo := pass.fee_undo }
      require (((block.vtx.head?.map getValueOut).getD 0) ≤
        pass.nFees + getBlockSubsidy ctx.nHeight ctx.env.params) (.consensus "bad-cb-amount")
      .ok ({ view with bestBlock := ctx.blockHash }, undo)) := by
  simp only [coinsStage, bind_eq_ok] at coins
  obtain ⟨_, checked, _, proof, _, parent, _, registered, _, rotations, _, fresh, coins⟩ := coins
  simp only [connectBlock, checked, proof, parent, if_neg above, registered, rotations, fresh, coins,
    Bind.bind, Except.bind]

theorem connectBlock_tracks {ctx' : BlockContext} (moved : ctx' = { ctx with blockHash := ctx'.blockHash })
    (above : ctx.blockHash ≠ ctx.env.params.hashGenesisBlock)
    (above' : ctx'.blockHash ≠ ctx.env.params.hashGenesisBlock)
    (coins : coinsStage ctx db view block = .ok pass) (coins' : coinsStage ctx' db view block' = .ok pass')
    (recomputed : BlockRecomputed ctx.env.crypto ρ pass.spent pass'.spent)
    (injective : Function.Injective ρ) (kept : MentionsKept ρ view)
    (shares : pass'.fee_undo = pass.fee_undo) (fees : pass'.nFees = pass.nFees)
    (mint : block'.vtx.head?.map getValueOut = block.vtx.head?.map getValueOut) :
    Tracks (fun r r' => r'.1.vks = r.1.vks) (connectBlock ctx db view block)
      (connectBlock ctx' db view block') := by
  have height : ctx'.nHeight = ctx.nHeight := by rw [moved]
  have params : ctx'.env = ctx.env := by rw [moved]
  rw [connectBlock_of_coinsStage above coins, connectBlock_of_coinsStage (by rwa [params]) coins', mint,
    fees, shares, height, params]
  have registry : Tracks (fun r r' => r'.1.vks = r.1.vks)
      (connectAssets ctx pass.spent { view with coins := pass.coins }
        { vtxundo := pass.spent.tail.map Prod.snd, fee_undo := pass.fee_undo })
      (connectAssets ctx' pass'.spent { view with coins := pass'.coins }
        { vtxundo := pass'.spent.tail.map Prod.snd, fee_undo := pass.fee_undo }) := by
    rw [moved]
    exact connectAssets_tracks recomputed injective (alike_of_kept kept _ _ _) rfl
  exact .bind registry fun _ _ keys => .seq rfl fun _ => .ok keys

theorem connectBlock_keys (above : ctx.blockHash ≠ ctx.env.params.hashGenesisBlock)
    (connected : connectBlock ctx db view block = .ok (next, undo)) : KeysAssembled ctx view block next := by
  obtain ⟨pass, assets, accepted, rfl⟩ := connectBlock_accepted above connected
  have registry := accepted.registry
  rw [accepted.spent_eq] at registry
  obtain ⟨final, _, connects, settles, emptied, rfl, rfl⟩ := connectAssets_eq_ok registry
  -- The totals at the end of the block touch neither slots nor keys.
  obtain ⟨_, _, rfl⟩ := settleSupplies_writes _ _ settles
  refine ⟨_, final, rfl, fun tx coins p member listed kyc => ⟨exists_turn accepted.limit member listed
    connects, fun t unknown => ?_⟩, fun tx inside chunk carried => ?_⟩
  · obtain ⟨payload, assembled, stored⟩ := t.key accepted.limit rfl kyc unknown
    exact ⟨payload, assembled, stored⟩
  · rw [← blockSpends_map_fst ctx.env.crypto ctx.nHeight view.coins block.vtx] at inside
    obtain ⟨⟨tx, coins⟩, member, rfl⟩ := List.mem_map.mp inside
    exact chunks_taken accepted.limit member connects emptied carried

end Accepted

/-- A verifying key that is not stored at its registration is the concatenation of the chunks beside
it, each index once, under their hash, and no chunk is left over. A block with reordered chunks,
recomputed accordingly, is accepted alike as long as the fees are shared alike. -/
theorem verifyingKeys_assembled (ctx : BlockContext) (db : ModelDb) (view : CCoinsView) (block : CBlock)
    (above : ctx.blockHash ≠ ctx.env.params.hashGenesisBlock) :
    (∀ next undo, connectBlock ctx db view block = .ok (next, undo) → KeysAssembled ctx view block next) ∧
    ∀ (σ : Equiv.Perm Uint256) (block' : CBlock) (ctx' : BlockContext) (pass pass' : CoinsPass),
      ctx' = { ctx with blockHash := ctx'.blockHash } → ctx'.blockHash ≠ ctx.env.params.hashGenesisBlock →
      coinsStage ctx db view block = .ok pass → coinsStage ctx' db view block' = .ok pass' →
      BlockRecomputed ctx.env.crypto σ pass.spent pass'.spent → MentionsKept σ view →
      pass'.fee_undo = pass.fee_undo → pass'.nFees = pass.nFees →
      block'.vtx.head?.map getValueOut = block.vtx.head?.map getValueOut →
      Tracks (fun r r' => r'.1.vks = r.1.vks) (connectBlock ctx db view block)
          (connectBlock ctx' db view block') ∧
        Tracks (fun r r' => r'.1.vks = r.1.vks) (connectBlock ctx' db view block')
          (connectBlock ctx db view block) := by
  refine ⟨fun next undo connected => connectBlock_keys above connected, ?_⟩
  intro σ block' ctx' pass pass' moved above' coins coins' recomputed kept shares fees mint
  have back : MentionsKept σ.symm view := fun id e known =>
    (congrArg (renamed σ.symm) (kept id e known)).symm.trans (renamed_symm σ e)
  have env : ctx'.env = ctx.env := by rw [moved]
  refine ⟨connectBlock_tracks moved above above' coins coins' recomputed σ.injective kept shares fees mint,
    connectBlock_tracks ?_ (by rwa [env]) (by rwa [env]) coins' coins ?_ σ.symm.injective back shares.symm
      fees.symm mint.symm⟩
  · rw [moved]
  · rw [env]
    exact recomputed.symm

namespace RegChain

def plainReg (id : Uint256) : IssuerReg :=
  { firstReg with asset_id := id, policy_quorum_bps := 0, unlock_fees_sats := 500000000 }

def pairReg : IssuerReg :=
  { plainReg 7 with
    kyc_flags := 1, zk_vk_commitment := crypto.hash [1, 2], max_root_age := 100
    compliance_root_commit := 1 }

def pairChunk (index byte : UInt8) : CTxOut :=
  ⟨0, [OP_RETURN], buildTlv ZK_PARAMS_CHUNK
    ((7 : Uint256).bytes ++ (crypto.hash [1, 2]).bytes ++ [index, 0, 2, 0] ++ [byte])⟩

def pairTx (change : Int64) (chunks : List CTxOut) : CTransaction :=
  signedSpend [⟨1, 0⟩, ⟨1, 1⟩]
    ([⟨100000000, [OP_1], buildIssuerRegV1 pairReg⟩, credential (plainReg 8), credential (plainReg 9),
      payAnyone change] ++ chunks)

def inOrder (change : Int64) : CTransaction := pairTx change [pairChunk 0 1, pairChunk 1 2]

def swapped (change : Int64) : CTransaction := pairTx change [pairChunk 1 2, pairChunk 0 1]

def pairEntry : AssetRegistryEntry where
  policy_bits := MINT_ALLOWED ||| BURN_ALLOWED
  icu_outpoint := ⟨1, 0⟩
  unlock_fees_sats := 500000000
  unlock_fees_base := 500000000
  fees_accum_sats := 366666667
  rotation_min_sats := 475000000

def bondCoin : Coin := ⟨credential (plainReg 7), 0, false⟩

def moneyCoin : Coin := ⟨payAnyone 2000000000, 0, false⟩

def pairState : ChainState :=
  { start with coinsTip := { start.coinsTip with
      coins := ((∅ : OrdMap COutPoint Coin).insert ⟨1, 0⟩ bondCoin).insert ⟨1, 1⟩ moneyCoin
      policies := (∅ : OrdMap Uint256 AssetRegistryEntry).insert 7 pairEntry } }

def pairMint (tx : CTransaction) : CTransaction :=
  let nonce : Bytes := List.replicate 32 0
  let root := blockWitnessMerkleRoot crypto { vtx := [coinbase 0 1 [], tx] }
  let commitment := (crypto.hash (root.bytes ++ nonce)).bytes
  let mint := coinbase 1 1
    [payAnyone 100, ⟨0, [OP_RETURN, 0x24, 0xaa, 0x21, 0xa9, 0xed] ++ commitment, []⟩]
  { mint with vin := mint.vin.map fun i => { i with scriptWitness := [nonce] } }

def pairBlock (tx : CTransaction) : CBlock :=
  assemble (genesis.getHash crypto) (10 + pow.tick) [pairMint tx, tx]

def pairContext (tx : CTransaction) : BlockContext := blockContext env pairState (pairBlock tx)

def connectPair (tx : CTransaction) : Except Failure (CCoinsView × CBlockUndo) :=
  connectBlock (pairContext tx) pairState.modelDb pairState.coinsTip (pairBlock tx)

def pairCoins (tx : CTransaction) : Except Failure CoinsPass :=
  coinsStage (pairContext tx) pairState.modelDb pairState.coinsTip (pairBlock tx)

theorem inOrder_permuted (change : Int64) : ChunksPermuted (inOrder change).vout (swapped change).vout := by
  have chunk : ∀ o ∈ [pairChunk 0 1, pairChunk 1 2], silent o = true ∧ carriesChunk o = true := by
    decide +kernel
  have first := chunk _ List.mem_cons_self
  have second := chunk _ (List.mem_cons_of_mem _ List.mem_cons_self)
  have plain : carriesChunk ⟨100000000, [OP_1], buildIssuerRegV1 pairReg⟩ = false ∧
      carriesChunk (credential (plainReg 8)) = false ∧ carriesChunk (credential (plainReg 9)) = false := by
    decide +kernel
  have paid : carriesChunk (payAnyone change) = false := rfl
  constructor
  · refine .cons (.inl rfl) (.cons (.inl rfl) (.cons (.inl rfl) (.cons (.inl rfl) (.cons (.inr ?_)
      (.cons (.inr ?_) .nil)))))
    · exact ⟨first.1, second.1, first.2.trans second.2.symm⟩
    · exact ⟨second.1, first.1, second.2.trans first.2.symm⟩
  · simp only [inOrder, swapped, pairTx, signedSpend, List.cons_append, List.nil_append, List.filter_cons,
      List.filter_nil, plain, paid, first.2, second.2, if_true, Bool.false_eq_true, if_false]
    exact .swap _ _ _

theorem pairMint_recomputed {ρ : Uint256 → Uint256} {tx tx' : CTransaction} (null : ρ 0 = 0)
    (named : (pairMint tx').txid crypto = ρ ((pairMint tx).txid crypto)) :
    Recomputed crypto ρ (pairMint tx) (pairMint tx') := by
  have version : ∀ tx, (pairMint tx).version = 1 := fun _ => rfl
  have bare : ∀ script, carriesChunk ⟨0, script, []⟩ = false := fun _ => rfl
  have none : ∀ tx, (pairMint tx).vout.filter carriesChunk = [] := fun _ => rfl
  have inputs : List.Forall₂ (fun i i' : CTxIn => i'.prevout = i.prevout.renamed ρ) (pairMint tx).vin
      (pairMint tx').vin := by
    refine .cons ?_ .nil
    change (⟨0, COutPoint.NULL_INDEX⟩ : COutPoint) = ⟨ρ 0, COutPoint.NULL_INDEX⟩
    rw [null]
  have outputs : ChunksPermuted (pairMint tx).vout (pairMint tx').vout := by
    refine ⟨.cons (.inl rfl) (.cons (.inr ⟨rfl, rfl, (bare _).trans (bare _).symm⟩) .nil), ?_⟩
    rw [none tx, none tx']
  refine ⟨(version tx').trans (version tx).symm, inputs, outputs, named, fun rotates => ?_⟩
  unfold isRotationTx at rotates
  rw [version] at rotates
  exact absurd rotates (by decide)

theorem getValueOut_pairMint (tx : CTransaction) : getValueOut (pairMint tx) = 100 := rfl

/-- The odd satoshi of the fee goes to the asset in one order and to another asset in the other, and
with it the right to lower the bond. -/
theorem chunkOrder_turns_block : ChunksPermuted (inOrder 1000000003).vout (swapped 1000000003).vout ∧
    (connectPair (inOrder 1000000003)).isOk = true ∧
    (connectPair (swapped 1000000003)).isOk = false := by
  refine ⟨inOrder_permuted _, ?_⟩
  decide +kernel

/-! With one satoshi less of change the shares come out alike. -/

def firstTx : CTransaction := inOrder 1000000002

def secondTx : CTransaction := swapped 1000000002

def swapNames : Equiv.Perm Uint256 :=
  (Equiv.swap ((pairMint firstTx).txid crypto) ((pairMint secondTx).txid crypto)).trans
    (Equiv.swap (firstTx.txid crypto) (secondTx.txid crypto))

theorem swapNames_apply : swapNames 0 = 0 ∧ swapNames 1 = 1 ∧
    swapNames ((pairMint firstTx).txid crypto) = (pairMint secondTx).txid crypto ∧
    swapNames (firstTx.txid crypto) = secondTx.txid crypto := by
  decide +kernel

def SameStage (pass pass' : CoinsPass) : Prop :=
  pass.spent = [(pairMint firstTx, []), (firstTx, [bondCoin, moneyCoin])] ∧
    pass'.spent = [(pairMint secondTx, []), (secondTx, [bondCoin, moneyCoin])] ∧
    pass'.fee_undo = pass.fee_undo ∧ pass'.nFees = pass.nFees

instance (pass pass' : CoinsPass) : Decidable (SameStage pass pass') := inferInstanceAs (Decidable (_ ∧ _))

theorem pair_evaluated : ((pairContext firstTx).blockHash ≠ env.params.hashGenesisBlock ∧
      (pairContext secondTx).blockHash ≠ env.params.hashGenesisBlock) ∧ (connectPair firstTx).toOption.any
      (fun r => decide (r.1.vks.get? pairReg.zk_vk_commitment = some [1, 2])) = true ∧
    (pairCoins firstTx).toOption.any (fun pass => (pairCoins secondTx).toOption.any fun pass' =>
      decide (SameStage pass pass')) = true := by
  decide +kernel

theorem firstTx_recomputed : Recomputed crypto swapNames firstTx secondTx where
  version := rfl
  inputs := by
    have spent : ∀ n, (⟨1, n⟩ : COutPoint) = COutPoint.renamed swapNames ⟨1, n⟩ := fun n => by
      simp only [COutPoint.renamed, swapNames_apply.2.1]
    exact .cons (spent 0) (.cons (spent 1) .nil)
  outputs := inOrder_permuted _
  txid := swapNames_apply.2.2.2.symm
  proposal rotates := absurd rotates (by decide +kernel)

theorem pairState_kept : MentionsKept swapNames pairState.coinsTip := by
  intro id e known
  have entry : e = pairEntry := by
    have lookup : (if id = 7 then some pairEntry else none) = some e := (OrdMap.get?_insert _ _ _ _).symm.trans known
    split_ifs at lookup
    exact (Option.some.inj lookup).symm
  rw [entry]
  simp [renamed, COutPoint.renamed, pairEntry, swapNames_apply.2.1]

theorem pairCoins_alike : ∃ pass pass', pairCoins firstTx = .ok pass ∧ pairCoins secondTx = .ok pass' ∧
    SameStage pass pass' := by
  have evaluated := pair_evaluated.2.2
  cases first : pairCoins firstTx with
  | error failure => simp [first, Except.toOption] at evaluated
  | ok pass =>
    cases second : pairCoins secondTx with
    | error failure => simp [first, second, Except.toOption] at evaluated
    | ok pass' =>
      rw [first, second] at evaluated
      exact ⟨pass, pass', rfl, rfl, of_decide_eq_true evaluated⟩

/-- Both orders are accepted, and both store the key of the two chunks. -/
theorem verifyingKeys_assembled_pair : ∃ next next' undo undo',
    connectPair firstTx = .ok (next, undo) ∧ connectPair secondTx = .ok (next', undo') ∧
    KeysAssembled (pairContext firstTx) pairState.coinsTip (pairBlock firstTx) next ∧
    next.vks.get? pairReg.zk_vk_commitment = some [1, 2] ∧ next'.vks = next.vks := by
  obtain ⟨⟨above, above'⟩, accepts, _⟩ := pair_evaluated
  obtain ⟨assembled, alike⟩ := verifyingKeys_assembled (pairContext firstTx) pairState.modelDb
    pairState.coinsTip (pairBlock firstTx) above
  cases connected : connectPair firstTx with
  | error failure => simp [connected, Except.toOption] at accepts
  | ok result =>
    obtain ⟨next, undo⟩ := result
    rw [connected] at accepts
    obtain ⟨pass, pass', coins, coins', spent, spent', shares, fees⟩ := pairCoins_alike
    have recomputed : BlockRecomputed crypto swapNames pass.spent pass'.spent := by
      rw [spent, spent']
      exact .cons ⟨pairMint_recomputed swapNames_apply.1 swapNames_apply.2.2.1.symm, rfl⟩
        (.cons ⟨firstTx_recomputed, rfl⟩ .nil)
    have mint : (pairBlock secondTx).vtx.head?.map getValueOut = (pairBlock firstTx).vtx.head?.map getValueOut :=
      congrArg some ((getValueOut_pairMint secondTx).trans (getValueOut_pairMint firstTx).symm)
    obtain ⟨⟨next', undo'⟩, connected', same⟩ := (alike swapNames (pairBlock secondTx)
      (pairContext secondTx) pass pass' rfl above' coins coins' recomputed pairState_kept shares fees mint).1
        (next, undo) connected
    exact ⟨next, next', undo, undo', rfl, connected', assembled next undo connected, of_decide_eq_true accepts, same⟩

end RegChain

end TensorCash
