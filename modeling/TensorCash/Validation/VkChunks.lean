import TensorCash.Lib.Reorder
import TensorCash.Validation.Turn

/-! Chunks of keys are gathered in slots; a registration empties its slot, and no slot may stay
filled. -/

namespace TensorCash

open Checked

def chunksOf (vout : List CTxOut) : List ZkParamsChunk := vout.filterMap fun o => parseZkParamsChunk o.vExt

abbrev VkChunkKey := Lex (Uint256 × Uint256)

def ZkParamsChunk.slot (chunk : ZkParamsChunk) : VkChunkKey := toLex (chunk.asset_id, chunk.vk_hash)

def IssuerReg.slot (reg : IssuerReg) : VkChunkKey := toLex (reg.asset_id, reg.zk_vk_commitment)

def slotChunks (vout : List CTxOut) (slot : VkChunkKey) : List ZkParamsChunk :=
  (chunksOf vout).filter fun chunk => chunk.slot = slot

def openSlot (held : Option VkChunkAccumulator) (chunk : ZkParamsChunk) : VkChunkAccumulator :=
  held.getD ⟨chunk.chunk_count.toNat, ∅⟩

def fillSlot (held : Option VkChunkAccumulator) (chunk : ZkParamsChunk) : VkChunkAccumulator :=
  { openSlot held chunk with
    parts := (openSlot held chunk).parts.insert chunk.chunk_index.toNat chunk.data }

structure SlotFits (held : Option VkChunkAccumulator) (chunk : ZkParamsChunk) : Prop where
  count : (openSlot held chunk).expected = chunk.chunk_count.toNat
  new : (openSlot held chunk).parts.get? chunk.chunk_index.toNat = none
  size : (fillSlot held chunk).payload.length ≤ MAX_VK_PAYLOAD_SIZE

structure Gathered (chunks : List ZkParamsChunk) (acc : VkChunkAccumulator) : Prop where
  some_one : chunks ≠ []
  count : ∀ chunk ∈ chunks, chunk.chunk_count.toNat = acc.expected
  parts : acc.parts.entries.Perm (chunks.map fun chunk => (chunk.chunk_index.toNat, chunk.data))
  size : acc.payload.length ≤ MAX_VK_PAYLOAD_SIZE

def Filled (chunks : List ZkParamsChunk) : Option VkChunkAccumulator → Prop
  | none => chunks = []
  | some acc => Gathered chunks acc

/-- A key assembled from chunks: each index below the count once, in the order of the indices. -/
structure Assembled (c : Crypto) (chunks : List ZkParamsChunk) (commitment : Uint256) (payload : Bytes) : Prop where
  indexed : ∃ (n : Nat) (ordered : List ZkParamsChunk), 0 < n ∧ ordered.Perm chunks ∧
    (ordered.map fun chunk => chunk.chunk_index.toNat) = List.range n ∧
    (∀ chunk ∈ chunks, chunk.chunk_count.toNat = n) ∧ payload = ordered.flatMap ZkParamsChunk.data
  size : (chunks.map fun chunk => chunk.data.length).sum ≤ MAX_VK_PAYLOAD_SIZE
  hash : c.hash payload = commitment

variable {out : CTxOut} {vout : List CTxOut} {slot : VkChunkKey} {chunk : ZkParamsChunk}

section Slots

variable {chunks : List ZkParamsChunk} {chunk : ZkParamsChunk} {acc : VkChunkAccumulator}
  {held : Option VkChunkAccumulator}

theorem parseZkParamsChunk_index {vext : Bytes} (parsed : parseZkParamsChunk vext = some chunk) :
    chunk.chunk_index.toNat < chunk.chunk_count.toNat := by
  unfold parseZkParamsChunk at parsed
  obtain ⟨_, _, parsed⟩ := Option.bind_eq_some_iff.mp parsed
  obtain ⟨⟨id, p⟩, _, parsed⟩ := Option.bind_eq_some_iff.mp parsed
  obtain ⟨⟨hash, p⟩, _, parsed⟩ := Option.bind_eq_some_iff.mp parsed
  obtain ⟨⟨index, p⟩, _, parsed⟩ := Option.bind_eq_some_iff.mp parsed
  obtain ⟨⟨count, data⟩, _, parsed⟩ := Option.bind_eq_some_iff.mp parsed
  dsimp only at parsed
  split_ifs at parsed with bad
  · cases parsed
  · cases parsed
    have above : ¬ count ≤ index := fun late => bad (.inr (.inr (.inl late)))
    exact UInt16.lt_iff_toNat_lt.mp (UInt16.not_le.mp above)

theorem index_of_mem (member : chunk ∈ chunksOf vout) : chunk.chunk_index.toNat < chunk.chunk_count.toNat := by
  obtain ⟨out, _, parsed⟩ := List.mem_filterMap.mp member
  exact parseZkParamsChunk_index parsed

theorem Filled.fill (filled : Filled chunks held) (fits : SlotFits held chunk) :
    Filled (chunks ++ [chunk]) (some (fillSlot held chunk)) := by
  have entries := OrdMap.entries_insert_perm chunk.data fits.new
  refine ⟨by simp, ?_, ?_, fits.size⟩
  · intro other member
    rcases List.mem_append.mp member with old | last
    · cases held with
      | none => exact absurd old (by simp [show chunks = [] from filled])
      | some acc => exact Gathered.count filled other old
    · rw [List.mem_singleton.mp last]
      exact fits.count.symm
  · rw [List.map_append]
    refine entries.trans (List.Perm.trans (.cons _ ?_) (List.perm_append_singleton _ _).symm)
    cases held with
    | none => simp [openSlot, show chunks = [] from filled]; rfl
    | some acc => exact Gathered.parts filled

theorem Gathered.length (gathered : Gathered chunks acc) :
    acc.payload.length = (chunks.map fun chunk => chunk.data.length).sum := by
  unfold VkChunkAccumulator.payload
  rw [(gathered.parts.flatMap_right Prod.snd).length_eq, List.length_flatMap, List.map_map]
  rfl

theorem Gathered.assembled {c : Crypto} {commitment : Uint256} (gathered : Gathered chunks acc)
    (bounded : ∀ chunk ∈ chunks, chunk.chunk_index.toNat < chunk.chunk_count.toNat)
    (complete : acc.complete = true) (hash : c.hash acc.payload = commitment) :
    Assembled c chunks commitment acc.payload := by
  simp only [VkChunkAccumulator.complete, Bool.and_eq_true, decide_eq_true_eq, List.all_eq_true,
    List.mem_range] at complete
  -- The entries are the chunks in the order of their indices.
  obtain ⟨ordered, listed, same⟩ := List.perm_comp_forall₂ (r := fun entry chunk =>
      entry = (chunk.chunk_index.toNat, chunk.data)) gathered.parts
    (List.forall₂_map_left_iff.mpr (List.forall₂_same.mpr fun _ _ => rfl))
  have entries : acc.parts.entries = ordered.map fun chunk => (chunk.chunk_index.toNat, chunk.data) := by
    rw [← List.forall₂_eq_eq_eq, List.forall₂_map_right_iff]
    exact listed
  have keys : acc.parts.entries.map Prod.fst = ordered.map fun chunk => chunk.chunk_index.toNat := by
    rw [entries, List.map_map]
    rfl
  have range : acc.parts.entries.map Prod.fst = List.range acc.expected := by
    refine List.Perm.eq_of_pairwise' (r := (· < ·)) ?_ List.pairwise_lt_range ?_
    · exact List.pairwise_map.mpr acc.parts.sorted
    · refine (List.perm_ext_iff_of_nodup acc.parts.nodup_keys List.nodup_range).mpr fun i => ?_
      rw [List.mem_range]
      constructor
      · rw [keys]
        intro member
        obtain ⟨chunk, inside, rfl⟩ := List.mem_map.mp member
        have known := same.mem_iff.mp inside
        exact gathered.count chunk known ▸ bounded chunk known
      · intro small
        obtain ⟨data, found⟩ := Option.isSome_iff_exists.mp (complete.2 i small)
        exact List.mem_map.mpr ⟨(i, data), OrdMap.mem_entries.mpr found, rfl⟩
  refine ⟨⟨acc.expected, ordered, Nat.pos_of_ne_zero complete.1, same, keys ▸ range, gathered.count, ?_⟩,
    gathered.length ▸ gathered.size, hash⟩
  unfold VkChunkAccumulator.payload
  rw [entries, List.flatMap_map]

end Slots

section Gathering

variable {c : Crypto} {tx : CTransaction} {pass pass' : RegistryPass} {vout : List CTxOut}

theorem collectChunk_eq_ok {regs : List IssuerReg} : collectChunk regs pass chunk = .ok pass' ↔
      (∃ r ∈ regs, r.asset_id = chunk.asset_id) ∧ SlotFits (pass.vk_chunks.get? chunk.slot) chunk ∧
        pass' = { pass with vk_chunks :=
          pass.vk_chunks.insert chunk.slot (fillSlot (pass.vk_chunks.get? chunk.slot) chunk) } := by
  unfold collectChunk
  dsimp only
  simp only [require_bind_eq_ok, List.any_eq_true, decide_eq_true_eq, Bool.not_eq_true']
  constructor
  · rintro ⟨known, count, new, size, done⟩
    refine ⟨known, ⟨count, ?_, size⟩, (Except.ok.inj done).symm⟩
    exact Option.not_isSome_iff_eq_none.mp (by
      simpa [OrdMap.contains, openSlot, ZkParamsChunk.slot] using new)
  · rintro ⟨known, ⟨count, new, size⟩, rfl⟩
    refine ⟨known, count, ?_, size, rfl⟩
    simpa [OrdMap.contains, openSlot, ZkParamsChunk.slot] using new

theorem collectExtension_slots (collected : collectExtension c tx pass out = .ok pass') :
    pass'.view = pass.view ∧ match parseZkParamsChunk out.vExt with
      | some chunk => collectChunk (regsOf tx.vout) pass chunk = .ok pass'
      | none => pass'.vk_chunks = pass.vk_chunks := by
  unfold collectExtension at collected
  cases carried : parseZkParamsChunk out.vExt with
  | some chunk =>
    rw [carried] at collected
    obtain ⟨_, _, rfl⟩ := collectChunk_eq_ok.mp collected
    exact ⟨rfl, collected⟩
  | none =>
    rw [carried] at collected
    cases anchored : parseTfrAnchor out.vExt with
    | some anchor =>
      rw [anchored] at collected
      simp only [require_bind_eq_ok] at collected
      obtain rfl := Except.ok.inj collected.2.2
      exact ⟨rfl, rfl⟩
    | none =>
      rw [anchored] at collected
      cases texted : parseIcuTextChunk out.vExt with
      | some text =>
        rw [texted] at collected
        unfold collectText at collected
        simp only [require_bind_eq_ok] at collected
        obtain rfl := Except.ok.inj collected.2.2.2.2
        exact ⟨rfl, rfl⟩
      | none =>
        rw [texted] at collected
        cases collected
        exact ⟨rfl, rfl⟩

theorem collectExtension_filled {chunks : List ZkParamsChunk}
    (collected : collectExtension c tx pass out = .ok pass')
    (filled : Filled chunks (pass.vk_chunks.get? slot)) :
    Filled (chunks ++ slotChunks [out] slot) (pass'.vk_chunks.get? slot) := by
  obtain ⟨_, slots⟩ := collectExtension_slots collected
  cases carried : parseZkParamsChunk out.vExt with
  | none =>
    rw [carried] at slots
    simpa [slotChunks, chunksOf, carried, show pass'.vk_chunks = pass.vk_chunks from slots] using filled
  | some chunk =>
    rw [carried] at slots
    obtain ⟨_, fits, rfl⟩ := collectChunk_eq_ok.mp slots
    by_cases own : chunk.slot = slot
    · subst own
      simpa [slotChunks, chunksOf, carried] using filled.fill fits
    · simpa [slotChunks, chunksOf, carried, own, OrdMap.get?_insert_of_ne _ _ _ (Ne.symm own)]
        using filled

theorem collectExtensions_filled (collected : vout.foldlM (collectExtension c tx) pass = .ok pass')
    (empty : pass.vk_chunks.get? slot = none) : Filled (slotChunks vout slot) (pass'.vk_chunks.get? slot) := by
  refine foldlM_induction (P := fun done now => Filled (slotChunks done slot) (now.vk_chunks.get? slot)) ?_ collected ?_
  · intro done out rest now next _ filled stepped
    have more := collectExtension_filled stepped filled
    have joined : slotChunks (done ++ [out]) slot = slotChunks done slot ++ slotChunks [out] slot := by
      simp only [slotChunks, chunksOf, List.filterMap_append, List.filter_append]
    rwa [joined]
  · rw [empty]
    rfl

theorem collectExtensions_view (collected : vout.foldlM (collectExtension c tx) pass = .ok pass') :
    pass'.view = pass.view := by
  have all : Ensures (fun now : RegistryPass => now.view = pass.view)
      (vout.foldlM (collectExtension c tx) pass) :=
    .foldlM rfl fun _ _ kept _ stepped => (collectExtension_slots stepped).1.trans kept
  exact all pass' collected

theorem collectExtensions_known (member : chunk ∈ chunksOf vout)
    (collected : vout.foldlM (collectExtension c tx) pass = .ok pass') :
    ∃ p ∈ pendingRegs tx, p.reg.asset_id = chunk.asset_id := by
  obtain ⟨out, inside, carried⟩ := List.mem_filterMap.mp member
  obtain ⟨before, after, stepped⟩ := foldlM_step_of_mem collected inside
  obtain ⟨_, slots⟩ := collectExtension_slots stepped
  rw [carried] at slots
  obtain ⟨⟨reg, listed, named⟩, _⟩ := collectChunk_eq_ok.mp slots
  obtain ⟨out', within, parsed⟩ := List.mem_filterMap.mp listed
  obtain ⟨index, at_index⟩ := List.mem_iff_getElem?.mp within
  refine ⟨⟨index, out', reg⟩, ?_, named⟩
  refine List.mem_filterMap.mpr ⟨(out', index), ?_, by simp [parsed]⟩
  exact List.mem_zipIdx_iff_getElem?.mpr at_index

theorem collectExtensions_empty (collected : vout.foldlM (collectExtension c tx) pass = .ok pass')
    (empty : pass.vk_chunks.get? slot = none) (silent : slotChunks vout slot = []) :
    pass'.vk_chunks.get? slot = none := by
  have filled := collectExtensions_filled collected empty
  rw [silent] at filled
  cases held : pass'.vk_chunks.get? slot with
  | none => rfl
  | some acc =>
    rw [held] at filled
    exact absurd rfl filled.some_one

end Gathering

/-- A registration may empty its slot, keeps every key, and takes its own from the slot. -/
structure TakesKey (c : Crypto) (reg : IssuerReg) (pass pass' : RegistryPass) : Prop where
  slots : ∀ slot, pass'.vk_chunks.get? slot = pass.vk_chunks.get? slot ∨
    (slot = reg.slot ∧ reg.kyc_flags ≠ 0 ∧ pass'.vk_chunks.get? slot = none)
  kept : ∀ hash key, pass.view.vks.get? hash = some key → pass'.view.vks.get? hash = some key
  stored : reg.kyc_flags ≠ 0 → pass.view.vks.get? reg.zk_vk_commitment = none →
    ∃ acc, pass.vk_chunks.get? reg.slot = some acc ∧ acc.complete = true ∧
      c.hash acc.payload = reg.zk_vk_commitment ∧ pass'.view.vks.get? reg.zk_vk_commitment = some acc.payload

structure SameKeys (pass pass' : RegistryPass) : Prop where
  slots : pass'.vk_chunks = pass.vk_chunks
  keys : pass'.view.vks = pass.view.vks

section Registrations

variable {c : Crypto} {ctx : BlockContext} {tx : CTransaction} {coins : List Coin}
  {spent : List (Uint256 × Int)} {pass pass' : RegistryPass} {reg : IssuerReg}
  {p : PendingIssuerReg}

theorem erase_slots (kyc : reg.kyc_flags ≠ 0) :
    (pass.vk_chunks.erase reg.slot).get? slot = pass.vk_chunks.get? slot ∨
    (slot = reg.slot ∧ reg.kyc_flags ≠ 0 ∧ (pass.vk_chunks.erase reg.slot).get? slot = none) := by
  by_cases own : slot = reg.slot
  · exact .inr ⟨own, kyc, by rw [own, OrdMap.get?_erase_self]⟩
  · exact .inl (OrdMap.get?_erase_of_ne _ _ own)

theorem installRegVk_takes (keyed : installRegVk c pass reg = .ok pass') : TakesKey c reg pass pass' := by
  unfold installRegVk at keyed
  split_ifs at keyed with kyc
  · unfold installVk at keyed
    obtain ⟨_, keyed⟩ := require_bind_eq_ok.mp keyed
    dsimp only at keyed
    split at keyed
    · next known _ =>
      cases keyed
      exact ⟨fun _ => .inl rfl, fun _ _ found => found, fun _ none => by simp [known] at none⟩
    · next known _ =>
      simp only [require_bind_eq_ok] at keyed
      obtain ⟨_, _, done⟩ := keyed
      cases done
      exact ⟨fun _ => erase_slots kyc, fun _ _ found => found, fun _ none => by simp [known] at none⟩
    · cases keyed
    · next acc unknown held =>
      simp only [require_bind_eq_ok] at keyed
      obtain ⟨complete, hash, _, done⟩ := keyed
      cases done
      refine ⟨fun _ => erase_slots kyc, fun other key found => ?_, fun _ _ =>
        ⟨acc, held, complete, hash, OrdMap.get?_insert_self ..⟩⟩
      -- The new key stands under a hash that had none.
      refine (OrdMap.get?_insert_of_ne _ _ _ ?_).trans found
      rintro rfl
      rw [unknown] at found
      cases found
  · cases keyed
    exact ⟨fun _ => .inl rfl, fun _ _ found => found, fun kyc' => absurd kyc' kyc⟩

theorem publishScalars_sameKeys (vout : List CTxOut) :
    Ensures (SameKeys pass) (publishScalars ctx spent pass vout) := by
  intro pass' publishes
  obtain ⟨_, _, _, rfl⟩ := publishScalars_publishes _ _ publishes
  exact ⟨rfl, rfl⟩

theorem registerAsset_takesKey (registered : registerAsset ctx tx coins spent pass p = .ok pass') :
    TakesKey ctx.env.crypto p.reg pass pass' := by
  obtain ⟨_, _, _, _, _, _, _, _, keyed, texted, _, rfl⟩ := registerAsset_steps registered
  obtain ⟨_, _, _, _, rfl⟩ := installRegIcu_installs _ _ _ texted
  obtain ⟨slots, kept, stored⟩ := installRegVk_takes keyed
  have bound : (pass.noted p.reg).view.vks = pass.view.vks := by
    obtain ⟨_, bound⟩ := bindTicker_eq (pass.view.policies.get? p.reg.asset_id) p.reg pass.view
    simp only [RegistryPass.noted, bound]
  rw [bound] at kept stored
  exact ⟨slots, kept, stored⟩

theorem registerAssets_slots {ps : List PendingIssuerReg}
    (registered : ps.foldlM (registerAsset ctx tx coins spent) pass = .ok pass') :
    (∀ hash key, pass.view.vks.get? hash = some key → pass'.view.vks.get? hash = some key) ∧
      ∀ slot, pass'.vk_chunks.get? slot = pass.vk_chunks.get? slot ∨
        ((∃ p ∈ ps, slot = p.reg.slot ∧ p.reg.kyc_flags ≠ 0) ∧ pass'.vk_chunks.get? slot = none) := by
  induction ps generalizing pass with
  | nil =>
    cases registered
    exact ⟨fun _ _ found => found, fun _ => .inl rfl⟩
  | cons q rest ih =>
    obtain ⟨mid, stepped, registered⟩ := foldlM_cons_eq_ok.mp registered
    have takes := registerAsset_takesKey stepped
    obtain ⟨kept, slots⟩ := ih registered
    refine ⟨fun hash key found => kept hash key (takes.kept hash key found), fun slot => ?_⟩
    rcases slots slot with same | ⟨⟨p, member, own⟩, emptied⟩
    · rcases takes.slots slot with before | ⟨own, kyc, emptied⟩
      · exact .inl (same.trans before)
      · exact .inr ⟨⟨q, List.mem_cons_self, own, kyc⟩, same.trans emptied⟩
    · exact .inr ⟨⟨p, List.mem_cons_of_mem _ member, own⟩, emptied⟩

end Registrations

section Blocks

variable {c : Crypto} {ctx : BlockContext} {txs : List (CTransaction × List Coin)}
  {tx : CTransaction} {coins : List Coin} {p : PendingIssuerReg}
  {start final pass pass' : RegistryPass} {slot : VkChunkKey}

theorem collectExtension_keeps_slot (collected : collectExtension c tx pass out = .ok pass')
    (filled : (pass.vk_chunks.get? slot).isSome) : (pass'.vk_chunks.get? slot).isSome := by
  obtain ⟨_, slots⟩ := collectExtension_slots collected
  cases carried : parseZkParamsChunk out.vExt with
  | none =>
    rw [carried] at slots
    rwa [show pass'.vk_chunks = pass.vk_chunks from slots]
  | some chunk =>
    rw [carried] at slots
    obtain ⟨_, _, rfl⟩ := collectChunk_eq_ok.mp slots
    rw [OrdMap.get?_insert]
    split_ifs
    · rfl
    · exact filled

theorem collectExtensions_keep_slot (collected : vout.foldlM (collectExtension c tx) pass = .ok pass')
    (filled : (pass.vk_chunks.get? slot).isSome) : (pass'.vk_chunks.get? slot).isSome := by
  have all : Ensures (fun now : RegistryPass => (now.vk_chunks.get? slot).isSome)
      (vout.foldlM (collectExtension c tx) pass) :=
    .foldlM filled fun _ _ kept _ stepped => collectExtension_keeps_slot stepped kept
  exact all pass' collected

theorem collectExtensions_slot (member : chunk ∈ chunksOf vout)
    (collected : vout.foldlM (collectExtension c tx) pass = .ok pass') :
    (pass'.vk_chunks.get? chunk.slot).isSome := by
  obtain ⟨out, inside, carried⟩ := List.mem_filterMap.mp member
  obtain ⟨front, rest, rfl⟩ := List.append_of_mem inside
  obtain ⟨before, after, _, stepped, run⟩ := foldlM_split collected
  refine collectExtensions_keep_slot run ?_
  obtain ⟨_, slots⟩ := collectExtension_slots stepped
  rw [carried] at slots
  obtain ⟨_, _, rfl⟩ := collectChunk_eq_ok.mp slots
  rw [OrdMap.get?_insert_self]
  rfl

structure RunKeys (txs : List (CTransaction × List Coin)) (pass pass' : RegistryPass) : Prop where
  kept : ∀ hash key, pass.view.vks.get? hash = some key → pass'.view.vks.get? hash = some key
  empty : ∀ slot, (ofLex slot).1 ∉ registeredIds txs → pass.vk_chunks.get? slot = none →
    pass'.vk_chunks.get? slot = none
  filled : ∀ slot, (pass.vk_chunks.get? slot).isSome → (pass'.vk_chunks.get? slot).isSome ∨
    ∃ t ∈ txs, ∃ p ∈ pendingRegs t.1, slot = p.reg.slot ∧ p.reg.kyc_flags ≠ 0

theorem connectAssetTx_keys (connected : connectAssetTx ctx pass (tx, coins) = .ok pass') :
    RunKeys [(tx, coins)] pass pass' := by
  obtain ⟨collected, published, collects, publishes, registered⟩ := connectAssetTx_steps connected
  obtain ⟨slots, keys⟩ := publishScalars_sameKeys _ published publishes
  obtain ⟨kept, emptied⟩ := registerAssets_slots registered
  rw [slots] at emptied
  refine ⟨fun hash key found => ?_, fun slot silent none => ?_, fun slot filled => ?_⟩
  · refine kept hash key ?_
    rw [keys, collectExtensions_view collects]
    exact found
  · -- A chunk of the slot would need a registration of its asset beside it.
    have without : slotChunks tx.vout slot = [] := by
      refine List.filter_eq_nil_iff.mpr fun chunk member own => silent ?_
      obtain ⟨p, listed, named⟩ := collectExtensions_known member collects
      rw [registeredIds_singleton, ← of_decide_eq_true own]
      exact List.mem_map.mpr ⟨p, listed, named⟩
    have left := collectExtensions_empty collects none without
    rcases emptied slot with same | ⟨_, none⟩
    · rw [same, left]
    · exact none
  · have still := collectExtensions_keep_slot collects filled
    rcases emptied slot with same | ⟨⟨p, counts, own⟩, _⟩
    · exact .inl (by rw [same]; exact still)
    · exact .inr ⟨_, List.mem_singleton_self _, p, lastRegs_subset counts, own⟩

theorem connectAssetTxs_keys (connected : txs.foldlM (connectAssetTx ctx) pass = .ok pass') :
    RunKeys txs pass pass' := by
  induction txs generalizing pass with
  | nil =>
    cases connected
    exact ⟨fun _ _ found => found, fun _ _ none => none, fun _ filled => .inl filled⟩
  | cons t rest ih =>
    obtain ⟨mid, stepped, connected⟩ := foldlM_cons_eq_ok.mp connected
    have first := connectAssetTx_keys stepped
    have later := ih connected
    refine ⟨fun hash key found => later.kept hash key (first.kept hash key found),
      fun slot silent none => ?_, fun slot filled => ?_⟩
    · rw [← List.singleton_append, registeredIds_append, List.mem_append, not_or] at silent
      exact later.empty slot silent.2 (first.empty slot silent.1 none)
    · rcases first.filled slot filled with still | ⟨t', member, found⟩
      · exact (later.filled slot still).imp_right fun ⟨t', member, found⟩ => ⟨t', List.mem_cons_of_mem _ member, found⟩
      · exact .inr ⟨t', List.mem_singleton.mp member ▸ List.mem_cons_self, found⟩

theorem Turn.filled (t : Turn ctx txs tx coins p start final) (limit : (registeredIds txs).Nodup)
    (fresh : start.vk_chunks = ∅) :
    Filled (slotChunks tx.vout p.reg.slot) (t.turn.vk_chunks.get? p.reg.slot) := by
  have none := (connectAssetTxs_keys t.opens).empty p.reg.slot (t.absent limit) (by rw [fresh]; rfl)
  have filled := collectExtensions_filled t.collects none
  rw [← (publishScalars_sameKeys _ t.published t.publishes).slots] at filled
  rcases (registerAssets_slots t.before).2 p.reg.slot with same | ⟨⟨q, early, own, _⟩, _⟩
  · rwa [same]
  · have ids : p.reg.asset_id = q.reg.asset_id := congrArg (fun slot => (ofLex slot).1) own
    exact absurd ids.symm (t.front_nodup.2 q early)

theorem Turn.key (t : Turn ctx txs tx coins p start final) (limit : (registeredIds txs).Nodup)
    (fresh : start.vk_chunks = ∅) (kyc : p.reg.kyc_flags ≠ 0)
    (unknown : t.turn.view.vks.get? p.reg.zk_vk_commitment = none) :
    ∃ payload, Assembled ctx.env.crypto (slotChunks tx.vout p.reg.slot) p.reg.zk_vk_commitment payload ∧
      final.view.vks.get? p.reg.zk_vk_commitment = some payload := by
  obtain ⟨acc, held, complete, hash, stored⟩ := (registerAsset_takesKey t.registers).stored kyc unknown
  have filled := t.filled limit fresh
  rw [held] at filled
  refine ⟨acc.payload, Gathered.assembled filled (fun chunk member => ?_) complete hash, ?_⟩
  · exact index_of_mem (List.mem_of_mem_filter member)
  · exact (connectAssetTxs_keys t.ends).kept _ _ ((registerAssets_slots t.behind).1 _ _ stored)

theorem chunks_taken (limit : (registeredIds txs).Nodup) (member : (tx, coins) ∈ txs)
    (connected : txs.foldlM (connectAssetTx ctx) start = .ok final) (done : final.vk_chunks = ∅)
    (carried : chunk ∈ chunksOf tx.vout) :
    ∃ p ∈ pendingRegs tx, chunk.slot = p.reg.slot ∧ p.reg.kyc_flags ≠ 0 := by
  obtain ⟨earlier, later, rfl⟩ := List.append_of_mem member
  obtain ⟨opened, closed, _, stepped, ends⟩ := foldlM_split connected
  obtain ⟨collected, published, collects, publishes, registered⟩ := connectAssetTx_steps stepped
  obtain ⟨q, beside, named⟩ := collectExtensions_known carried collects
  have filled := collectExtensions_slot carried collects
  rw [← (publishScalars_sameKeys _ published publishes).slots] at filled
  rcases (registerAssets_slots registered).2 chunk.slot with same | ⟨⟨p, counts, own⟩, _⟩
  · rw [← same] at filled
    rcases (connectAssetTxs_keys ends).filled _ filled with still | ⟨t, inside, p, listed, own, kyc⟩
    · simp [done] at still
    · -- A later registration of the asset would be its second one in the block.
      have ids : q.reg.asset_id = p.reg.asset_id := named.trans (congrArg (fun slot => (ofLex slot).1) own)
      obtain ⟨_, rfl⟩ := registration_unique limit member
        (List.mem_append_right _ (List.mem_cons_of_mem _ inside)) beside listed ids
      exact ⟨q, beside, own, kyc⟩
  · exact ⟨p, lastRegs_subset counts, own⟩

end Blocks

end TensorCash
