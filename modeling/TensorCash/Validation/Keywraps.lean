import TensorCash.Validation.RegChain
import TensorCash.Validation.Turn
import TensorCash.Wallet.AssetTags

/-! `ConnectBlock` looks at the keywrap of `ParseAssetTag`, which is put together from all such
records. -/

namespace TensorCash

open Checked Codec

def NestedRecord.keywrap? : NestedRecord → Option IcuKeywrap
  | .keywrap body => some body
  | _ => none

def mergedKeywrap (keywraps : List IcuKeywrap) : Option IcuKeywrap :=
  keywraps.foldl (fun old new => some (new.merge old)) none

structure IcuKeywrap.Masked (k : IcuKeywrap) : Prop where
  wrap_commit : k.wrap_commit.isSome ↔ k.extras_mask &&& ICU_KEYWRAP_EXTRA_WRAP_COMMIT ≠ 0
  kc_tag : k.kc_tag.isSome ↔ k.extras_mask &&& ICU_KEYWRAP_EXTRA_KC_TAG ≠ 0

def NoExtraBeyond (last : IcuKeywrap) (keywraps : List IcuKeywrap) : Prop :=
  ∀ k ∈ keywraps, (k.wrap_commit.isSome → last.wrap_commit.isSome) ∧ (k.kc_tag.isSome → last.kc_tag.isSome)

section Tags

variable {vext : Bytes} {tag : AssetTag} {records : List NestedRecord} {k : IcuKeywrap}
  {keywraps : List IcuKeywrap}

theorem parseKeywrapBody_masked {value : Bytes} (read : parseKeywrapBody value = some k) : k.Masked := by
  unfold parseKeywrapBody at read
  simp only [Option.bind_eq_bind, Option.bind_eq_some_iff, Option.ite_none_left_eq_some, Prod.exists,
    Option.bind_none] at read
  obtain ⟨_, _, _, _, _, _, _, _, _, _, _, _, _, _, _, _, _, _, _, _, _, mask, _, _, _, extras⟩ := read
  split_ifs at extras with commit tag tag
  all_goals
    simp only [Option.bind_eq_some_iff, Option.map_eq_some_iff, Option.bind_some, Option.ite_none_left_eq_some,
      Option.some.injEq, exists_exists_and_eq_and] at extras
  · obtain ⟨_, _, _, _, _, _, rfl⟩ := extras
    exact ⟨by simp [commit], by simp [tag]⟩
  · obtain ⟨_, _, _, _, rfl⟩ := extras
    exact ⟨by simp [commit], by simpa using tag⟩
  · obtain ⟨_, _, _, _, rfl⟩ := extras
    exact ⟨by simpa using commit, by simp [tag]⟩
  · obtain ⟨_, _, rfl⟩ := extras
    exact ⟨by simpa using commit, by simpa using tag⟩

theorem mem_keywraps : NestedRecord.keywrap k ∈ records ↔ k ∈ records.filterMap NestedRecord.keywrap? := by
  simp only [List.mem_filterMap]
  constructor
  · exact fun member => ⟨_, member, rfl⟩
  · rintro ⟨record, member, own⟩
    cases record with
    | keywrap body =>
      cases own
      exact member
    | epoch => cases own
    | proposal_hash => cases own

theorem nestedRecords_masked {fuel : Nat} {bytes : Bytes} (read : nestedRecords fuel bytes = some records)
    (member : .keywrap k ∈ records) : k.Masked := by
  induction fuel generalizing bytes records with
  | zero =>
    cases bytes with
    | nil =>
      cases read
      cases member
    | cons => cases read
  | succ fuel ih =>
    cases bytes with
    | nil =>
      cases read
      cases member
    | cons sub_type rest =>
      simp only [nestedRecords, Option.bind_eq_some_iff, Option.map_eq_some_iff, Prod.exists] at read
      obtain ⟨record, tail, first, others, later, rfl⟩ := read
      rcases List.mem_cons.mp member with rfl | member
      · unfold readNested at first
        split_ifs at first
        all_goals
          simp only [Option.bind_eq_bind, Option.bind_eq_some_iff, Option.bind_none, Prod.exists, ite_not,
            Option.some.injEq, Prod.mk.injEq, reduceCtorEq, NestedRecord.keywrap.injEq, false_and, and_false,
            exists_false, Option.ite_none_right_eq_some] at first
        obtain ⟨_, _, _, _, _, _, _, body, rfl, _⟩ := first
        exact parseKeywrapBody_masked body
      · exact ih later member

theorem mergedKeywrap_concat (front : List IcuKeywrap) (last : IcuKeywrap) :
    mergedKeywrap (front ++ [last]) = some (last.merge (mergedKeywrap front)) := by
  rw [mergedKeywrap, List.foldl_append]
  rfl

theorem merged_extras (keywraps : List IcuKeywrap) (old : Option IcuKeywrap) :
    let reported := keywraps.foldl (fun old new => some (new.merge old)) old
    ((reported.bind IcuKeywrap.wrap_commit).isSome ↔
        (old.bind IcuKeywrap.wrap_commit).isSome ∨ ∃ k ∈ keywraps, k.wrap_commit.isSome) ∧
      ((reported.bind IcuKeywrap.kc_tag).isSome ↔
        (old.bind IcuKeywrap.kc_tag).isSome ∨ ∃ k ∈ keywraps, k.kc_tag.isSome) := by
  induction keywraps generalizing old with
  | nil => simp
  | cons new rest ih =>
    obtain ⟨commit, tag⟩ := ih (some (new.merge old))
    simp only [List.foldl_cons]
    rw [commit, tag]
    simp only [IcuKeywrap.merge, Option.bind_some, List.mem_cons, Option.orElse_eq_orElse, Option.orElse_eq_or,
      Option.isSome_or, Bool.or_eq_true, or_and_right, exists_or, exists_eq_left]
    exact ⟨(or_congr_left or_comm).trans or_assoc, (or_congr_left or_comm).trans or_assoc⟩

theorem mergedKeywrap_mem_iff {front : List IcuKeywrap} {last : IcuKeywrap}
    (masked : ∀ k ∈ front ++ [last], k.Masked) :
    last.merge (mergedKeywrap front) ∈ front ++ [last] ↔ NoExtraBeyond last (front ++ [last]) := by
  obtain ⟨commits, tags⟩ := merged_extras (front ++ [last]) none
  rw [← mergedKeywrap, mergedKeywrap_concat] at commits tags
  simp only [Option.bind_none, Option.isSome_none, Bool.false_eq_true, false_or, Option.bind_some] at commits tags
  have own := masked last (by simp)
  constructor
  · intro whole k member
    have reported := masked _ whole
    exact ⟨fun there => own.wrap_commit.mpr (reported.wrap_commit.mp (commits.mpr ⟨k, member, there⟩)),
      fun there => own.kc_tag.mpr (reported.kc_tag.mp (tags.mpr ⟨k, member, there⟩))⟩
  · intro beyond
    have same : last.merge (mergedKeywrap front) = last := by
      have commit : (last.merge (mergedKeywrap front)).wrap_commit = last.wrap_commit := by
        cases lacking : last.wrap_commit with
        | some h => simp [IcuKeywrap.merge, lacking]
        | none =>
          by_contra there
          obtain ⟨k, member, has⟩ := commits.mp (Option.isSome_iff_ne_none.mpr there)
          simpa [lacking] using (beyond k member).1 has
      have tag : (last.merge (mergedKeywrap front)).kc_tag = last.kc_tag := by
        cases lacking : last.kc_tag with
        | some h => simp [IcuKeywrap.merge, lacking]
        | none =>
          by_contra there
          obtain ⟨k, member, has⟩ := tags.mp (Option.isSome_iff_ne_none.mpr there)
          simpa [lacking] using (beyond k member).2 has
      simp only [IcuKeywrap.merge] at commit tag ⊢
      rw [commit, tag]
    rw [same]
    simp

theorem foldl_absorb_keywrap (records : List NestedRecord) (tag : AssetTag) :
    (records.foldl AssetTag.absorb tag).keywrap = (records.filterMap NestedRecord.keywrap?).foldl
      (fun old new => some (new.merge old)) tag.keywrap := by
  induction records generalizing tag with
  | nil => rfl
  | cons record rest ih => cases record <;> exact ih _

theorem exists_last_keywrap (some_keywrap : tag.keywrap = mergedKeywrap keywraps)
    (reported : tag.keywrap = some k) :
    ∃ front last, keywraps = front ++ [last] ∧ k = last.merge (mergedKeywrap front) := by
  rcases List.eq_nil_or_concat keywraps with rfl | ⟨front, last, rfl⟩
  · cases some_keywrap.symm.trans reported
  · rw [List.concat_eq_append, mergedKeywrap_concat] at some_keywrap
    exact ⟨front, last, List.concat_eq_append, Option.mem_unique reported some_keywrap⟩

theorem parseAssetTag_records (read : parseAssetTag vext = some tag) : ∃ records, nestedOf vext = some records ∧
      tag.keywrap = mergedKeywrap (records.filterMap NestedRecord.keywrap?) := by
  obtain ⟨id, amount, flags, rest, records, body, _, nested, rfl⟩ := parseAssetTag_eq_some.mp read
  exact ⟨records, by simp [nestedOf, body, nested], foldl_absorb_keywrap records _⟩

theorem nestedOf_masked (read : nestedOf vext = some records) :
    ∀ k ∈ records.filterMap NestedRecord.keywrap?, k.Masked := by
  obtain ⟨_, _, nested⟩ := Option.bind_eq_some_iff.mp read
  exact fun k member => nestedRecords_masked nested (mem_keywraps.mpr member)

end Tags

/-- A key wrapped for an output's script, under the entry's text. -/
structure IcuKeywrap.For (c : Crypto) (policy : AssetRegistryEntry) (id : Uint256) (spk : CScript)
    (k : IcuKeywrap) : Prop where
  asset_id : k.asset_id = id
  ctxt_hash : k.ctxt_hash = policy.icu_ctxt_commit
  spk_hash32 : k.spk_hash32 = c.sha256 ([84, 97, 112, 77, 97, 116, 99, 104] ++ spk)

theorem checkKeywrap_record {c : Crypto} {view : CCoinsView} {out : CTxOut} {tag : AssetTag}
    {policy : AssetRegistryEntry} (passed : checkKeywrap c view out = .ok ⟨⟩)
    (read : parseAssetTag out.vExt = some tag) (entry : view.policies.get? tag.id = some policy)
    (required : hasBits policy.icu_flags WRAP_REQUIRED) :
    ∃ records k, nestedOf out.vExt = some records ∧ .keywrap k ∈ records ∧ k.Masked ∧
      k.For c policy tag.id out.scriptPubKey := by
  simp only [checkKeywrap, read, entry, if_pos required] at passed
  obtain ⟨k, reported, passed⟩ := bind_eq_ok.mp passed
  obtain ⟨_, asset_id, passed⟩ := bind_eq_ok.mp passed
  obtain ⟨_, ctxt_hash, passed⟩ := bind_eq_ok.mp passed
  obtain ⟨records, nested, merged⟩ := parseAssetTag_records read
  obtain ⟨front, last, split, rfl⟩ := exists_last_keywrap merged (demand_eq_ok.mp reported)
  have member : last ∈ records.filterMap NestedRecord.keywrap? := by simp [split]
  exact ⟨records, last, nested, mem_keywraps.mpr member, nestedOf_masked nested _ member,
    require_eq_ok.mp asset_id, require_eq_ok.mp ctxt_hash, require_eq_ok.mp passed⟩

theorem keywrap_unmixed_iff {vext : Bytes} {tag : AssetTag} (read : parseAssetTag vext = some tag) :
    ∃ records, nestedOf vext = some records ∧ ((∀ k, tag.keywrap = some k → .keywrap k ∈ records) ↔
      ∀ last, (records.filterMap NestedRecord.keywrap?).getLast? = some last →
        NoExtraBeyond last (records.filterMap NestedRecord.keywrap?)) := by
  obtain ⟨records, nested, merged⟩ := parseAssetTag_records read
  have masked := nestedOf_masked nested
  refine ⟨records, nested, ?_⟩
  simp only [mem_keywraps]
  generalize records.filterMap NestedRecord.keywrap? = keywraps at merged masked ⊢
  rcases List.eq_nil_or_concat keywraps with rfl | ⟨front, last, rfl⟩
  · simp [merged, mergedKeywrap]
  · rw [List.concat_eq_append] at merged masked ⊢
    simpa [merged, mergedKeywrap_concat] using mergedKeywrap_mem_iff masked

/-- What `ConnectBlock` opens the registry with: the coins are moved and the fees are credited. -/
def startingPass (ctx : BlockContext) (view next : CCoinsView) (block : CBlock)
    (undo : CBlockUndo) : RegistryPass :=
  let spent := blockSpends ctx.env.crypto ctx.nHeight view.coins block.vtx
  { view := creditFees undo.fee_undo { view with coins := next.coins }
    undo := { vtxundo := spent.tail.map Prod.snd, fee_undo := undo.fee_undo } }

/-- A transaction of an accepted block with an output tagged with an asset that wants wrapped keys
brings a keywrap of that asset, its text and that script. The fields reported for a keywrap are
those of one record exactly when the last record has every extra of the earlier ones. -/
theorem required_keywraps_present (ctx : BlockContext) (db : ModelDb) (view next : CCoinsView) (block : CBlock)
    (undo : CBlockUndo) (vext : Bytes) (tag : AssetTag) :
    (ctx.blockHash ≠ ctx.env.params.hashGenesisBlock → connectBlock ctx db view block = .ok (next, undo) →
      ∀ earlier tx coins later,
        blockSpends ctx.env.crypto ctx.nHeight view.coins block.vtx = earlier ++ (tx, coins) :: later →
        ∃ opened, earlier.foldlM (connectAssetTx ctx) (startingPass ctx view next block undo) = .ok opened ∧
          ∀ out ∈ tx.vout, ∀ tag policy, parseAssetTag out.vExt = some tag →
            opened.view.policies.get? tag.id = some policy → hasBits policy.icu_flags WRAP_REQUIRED →
            ∃ records k, nestedOf out.vExt = some records ∧ .keywrap k ∈ records ∧ k.Masked ∧
              k.For ctx.env.crypto policy tag.id out.scriptPubKey) ∧
    (parseAssetTag vext = some tag →
      ∃ records, nestedOf vext = some records ∧
        ((∀ k, tag.keywrap = some k → .keywrap k ∈ records) ↔
          ∀ last, (records.filterMap NestedRecord.keywrap?).getLast? = some last →
            NoExtraBeyond last (records.filterMap NestedRecord.keywrap?))) := by
  refine ⟨?_, fun read => keywrap_unmixed_iff read⟩
  intro above connected earlier tx coins later split
  obtain ⟨pass, assets, accepted, rfl⟩ := connectBlock_accepted above connected
  have registry := accepted.registry
  obtain ⟨moved, _, fees⟩ := connectAssets_sameCoins registry
  obtain ⟨done, _, stepped, _⟩ := connectAssets_eq_ok registry
  have start : startingPass ctx view { assets with bestBlock := ctx.blockHash } block undo =
      { view := creditFees pass.fee_undo { view with coins := pass.coins }
        undo := { vtxundo := pass.spent.tail.map Prod.snd, fee_undo := pass.fee_undo } } := by
    simp only [startingPass, moved, fees, accepted.spent_eq]
  rw [start]
  rw [accepted.spent_eq, split] at stepped ⊢
  obtain ⟨opened, next, opens, step, _⟩ := foldlM_split stepped
  refine ⟨opened, opens, fun out member tag policy read entry required => ?_⟩
  obtain ⟨_, _, collects, checked, _⟩ := connectAssetTx_eq_ok step
  obtain ⟨_, _, _, rfl⟩ := collectExtensions_collects _ _ collects
  exact checkKeywrap_record (forM_eq_ok.mp checked out member) read entry required

def keywrapBytes (mask : UInt8) (extra : Bytes) : Bytes :=
  let body := Uint256.bytes 7 ++ Uint256.bytes 8 ++ Uint256.bytes 9 ++ [0, 0, mask] ++ extra
  0x03 :: writeCompactSize body.length ++ body

def carrier (nested : Bytes) : Bytes := buildTlv ASSET_TAG (Uint256.bytes 7 ++ leBytes 8 5 ++ nested)

def twoKeywraps : Bytes := carrier (keywrapBytes 1 (Uint256.bytes 11) ++ keywrapBytes 0 [])

def oneKeywrap : Bytes := carrier (keywrapBytes 1 (Uint256.bytes 11))

open RegChain in
theorem required_keywraps_present_once : ∃ tag records, parseAssetTag oneKeywrap = some tag ∧
    nestedOf oneKeywrap = some records ∧ ∀ k, tag.keywrap = some k → .keywrap k ∈ records := by
  have parsed : (parseAssetTag oneKeywrap).isSome := by decide +kernel
  obtain ⟨tag, read⟩ := Option.isSome_iff_exists.mp parsed
  obtain ⟨records, nested, whole⟩ := (required_keywraps_present (blockContext env start genesis) {}
    start.coinsTip start.coinsTip genesis {} _ tag).2 read
  have one : (nestedOf oneKeywrap).map
      (fun records => (records.filterMap NestedRecord.keywrap?).length) = some 1 := by decide +kernel
  rw [nested, Option.map_some, Option.some.injEq, List.length_eq_one_iff] at one
  obtain ⟨only, alone⟩ := one
  refine ⟨tag, records, read, nested, whole.mpr fun last found => ?_⟩
  rw [alone] at found ⊢
  cases found
  simp [NoExtraBeyond]

/-- The commitment of the first is reported with the mask of the second. -/
theorem twoKeywraps_mixed :
    ((parseAssetTag twoKeywraps).bind AssetTag.keywrap).map (fun k => (k.extras_mask, k.wrap_commit)) =
        some (0, some 11) ∧ ((nestedOf twoKeywraps).map fun records => (records.filterMap NestedRecord.keywrap?).map
        fun k => (k.extras_mask, k.wrap_commit)) = some [(1, some 11), (0, none)] := by
  decide +kernel

end TensorCash
