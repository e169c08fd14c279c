import TensorCash.Wallet.FundedInputs

/-! An asset tag is read by `assets::ParseAssetTag`, and again, without its nested records, by
`CTxOut` itself. -/

namespace TensorCash

open Codec Funding

inductive NestedRecord where
  | epoch (value : UInt8)
  | keywrap (body : IcuKeywrap)
  | proposal_hash (hash : Uint256)
deriving DecidableEq

def readNested (sub_type : UInt8) (rest : Bytes) : Option (NestedRecord × Bytes) :=
  if sub_type = 0x02 then do
    let (sub_len, rest) ← takeUInt8 rest
    if sub_len ≠ 1 then none
    let (epoch, rest) ← takeUInt8 rest
    some (.epoch epoch, rest)
  else if sub_type = 0x03 then do
    let (sub_len, rest) ← readCompactSize false rest
    let (body, rest) ← takeBytes sub_len rest
    let keywrap ← parseKeywrapBody body
    some (.keywrap keywrap, rest)
  else if sub_type = 0x04 then do
    let (sub_len, rest) ← takeUInt8 rest
    if sub_len ≠ 32 then none
    let (proposal_hash, rest) ← takeUint256 rest
    some (.proposal_hash proposal_hash, rest)
  else none

def nestedRecords : Nat → Bytes → Option (List NestedRecord)
  | _, [] => some []
  | 0, _ :: _ => none
  | fuel + 1, sub_type :: rest =>
    (readNested sub_type rest).bind fun (record, rest) => (nestedRecords fuel rest).map (record :: ·)

def AssetTag.absorb (tag : AssetTag) : NestedRecord → AssetTag
  | .epoch value => { tag with epoch := some value }
  | .keywrap body => { tag with keywrap := some (body.merge tag.keywrap) }
  | .proposal_hash hash => { tag with proposal_hash := some hash }

/-- The flags behind the amount, unless a nested record comes next. -/
def tagFlags (rest : Bytes) : Option (UInt32 × Bytes) :=
  if 4 ≤ rest.length ∧ rest.head? ≠ some 0x02 ∧ rest.head? ≠ some 0x03 then takeUInt32 rest
  else some (0, rest)

def tagBody (vext : Bytes) : Option (Uint256 × UInt64 × UInt32 × Bytes) := do
  let value ← parseTyped ASSET_TAG vext
  let (id, rest) ← takeUint256 value
  let (amount, rest) ← takeUInt64 rest
  let (flags, rest) ← tagFlags rest
  some (id, amount, flags, rest)

def nestedOf (vext : Bytes) : Option (List NestedRecord) :=
  (tagBody vext).bind fun (_, _, _, rest) => nestedRecords rest.length rest

theorem parseAssetTagRecords_eq (fuel : Nat) (tag : AssetTag) (bytes : Bytes) :
    parseAssetTagRecords fuel tag bytes =
      (nestedRecords fuel bytes).map fun records => records.foldl AssetTag.absorb tag := by
  induction fuel generalizing tag bytes with
  | zero => cases bytes <;> rfl
  | succ fuel ih =>
    cases bytes with
    | nil => rfl
    | cons sub_type rest =>
      unfold parseAssetTagRecords nestedRecords readNested
      cases rest with
      | nil => split_ifs <;> simp_all [takeUInt8, readCompactSize]
      | cons b rest =>
        rw [if_neg (List.cons_ne_nil _ _)]
        split_ifs
        · by_cases one : b = 1
          · cases rest <;> simp [takeUInt8, one, ih, AssetTag.absorb, Function.comp_def]
          · simp [takeUInt8, one]
        · cases readCompactSize false (b :: rest) with
          | none => rfl
          | some sized =>
            cases read : takeBytes sized.1 sized.2 with
            | none => simp [read]
            | some framed =>
              cases body : parseKeywrapBody framed.1 <;> simp [read, body, ih, AssetTag.absorb, Function.comp_def]
        · by_cases whole : b = 32
          · cases hash : takeUint256 rest <;> simp [takeUInt8, whole, hash, ih, AssetTag.absorb, Function.comp_def]
          · simp [takeUInt8, whole]
        · rfl

theorem parseAssetTag_eq (vext : Bytes) :
    parseAssetTag vext =
      (tagBody vext).bind fun (id, amount, flags, rest) => if id = 0 then none else
        (nestedRecords rest.length rest).map fun records => records.foldl AssetTag.absorb
        { id, amount, flags } := by
  simp only [parseAssetTag, tagBody, Option.bind_eq_bind, Option.bind_assoc, Option.bind_some, parseAssetTagRecords_eq]
  refine Option.bind_congr fun value _ => Option.bind_congr fun front _ => Option.bind_congr fun middle _ => ?_
  by_cases null : front.1 = 0
  · cases tagFlags middle.2 <;> simp [null]
  · unfold tagFlags
    split_ifs <;> simp_all

theorem parseAssetTag_eq_some {vext : Bytes} {tag : AssetTag} :
    parseAssetTag vext = some tag ↔ ∃ id amount flags rest records,
      tagBody vext = some (id, amount, flags, rest) ∧ id ≠ 0 ∧ nestedRecords rest.length rest = some records ∧
      records.foldl AssetTag.absorb { id, amount, flags } = tag := by
  rw [parseAssetTag_eq]
  simp only [Option.bind_eq_some_iff, Prod.exists]
  refine exists_congr fun id => exists_congr fun amount => exists_congr fun flags => exists_congr fun rest => ?_
  by_cases null : id = 0 <;> simp [null, Option.map_eq_some_iff]

theorem foldl_absorb_front (records : List NestedRecord) (tag : AssetTag) :
    (records.foldl AssetTag.absorb tag).id = tag.id ∧ (records.foldl AssetTag.absorb tag).amount = tag.amount ∧
      (records.foldl AssetTag.absorb tag).flags = tag.flags := by
  induction records generalizing tag with
  | nil => exact ⟨rfl, rfl, rfl⟩
  | cons record rest ih => cases record <;> exact ih _

theorem parseTyped_unique {type type' : UInt8} {vext value : Bytes}
    (read : parseTyped type vext = some value) (other : type' ≠ type) : parseTyped type' vext = none := by
  cases again : parseTyped type' vext with
  | none => rfl
  | some value' =>
    have types := (parseTyped_eq_some.mp again).1.symm.trans (parseTyped_eq_some.mp read).1
    exact absurd (List.cons.inj types).1 other

theorem known_or_typed {params : Params} {nHeight : Nat} {vExt : Bytes}
    (known : isKnownExtension params nHeight vExt = true) (untagged : parseAssetTag vExt = none) :
    parseTyped ASSET_TAG vExt = none := by
  cases typed : parseTyped ASSET_TAG vExt with
  | none => rfl
  | some value =>
    have other : ∀ {type}, type ≠ ASSET_TAG → parseTyped type vExt = none :=
      fun differ => parseTyped_unique typed differ
    simp [isKnownExtension, untagged, parseIssuerReg, parseZkParamsChunk, parseIcuTextChunk,
      parseTfrAnchor, parseZkProofPayload, parseIcuKeywrap, parseIcuAcceptanceTLV, parseIssuerScalar,
      other (show ISSUER_REG ≠ _ by decide), other (show ZK_PARAMS_CHUNK ≠ _ by decide),
      other (show ICU_TEXT_CHUNK ≠ _ by decide), other (show TFR_ANCHOR ≠ _ by decide),
      other (show ZK_PROOF_PAYLOAD ≠ _ by decide), other (show ICU_KEYWRAP ≠ _ by decide),
      other (show ICU_ACCEPTANCE_TLV_TYPE ≠ _ by decide), other (show ISSUER_SCALAR ≠ _ by decide)] at known

/-- Where `CheckTxInputs` and `ConnectBlock` admit an extension, the output's own reader reports the
tag that the parser reports. -/
theorem tagReaders_agree {params : Params} {nHeight : Nat} {out : CTxOut}
    (admitted : out.vExt = [] ∨ isKnownExtension params nHeight out.vExt = true) :
    out.hasAssetTLV = (parseAssetTag out.vExt).isSome ∧ out.assetID = (parseAssetTag out.vExt).map AssetTag.id ∧
      out.assetAmount = (parseAssetTag out.vExt).map AssetTag.amount := by
  cases tagged : parseAssetTag out.vExt with
  | none =>
    have untyped : parseTyped ASSET_TAG out.vExt = none := by
      rcases admitted with empty | known
      · rw [empty]
        rfl
      · exact known_or_typed known tagged
    simp [CTxOut.hasAssetTLV, CTxOut.assetID, CTxOut.assetAmount, untyped]
  | some tag =>
    obtain ⟨id, amount, flags, rest, records, body, set, _, rfl⟩ := parseAssetTag_eq_some.mp tagged
    obtain ⟨named, counted, _⟩ := foldl_absorb_front records { id, amount, flags }
    simp only [tagBody, Option.bind_eq_bind, Option.bind_eq_some_iff, Prod.exists, Option.some.injEq,
      Prod.mk.injEq] at body
    obtain ⟨value, typed, _, _, front, _, _, middle, _, _, _, rfl, rfl, _⟩ := body
    simp [CTxOut.hasAssetTLV, CTxOut.assetID, CTxOut.assetAmount, typed, front, middle, set, named, counted]

/-- Five units of an asset, with a nested record of the epoch. -/
def fiveUnits : CTxOut where
  nValue := 1000
  scriptPubKey := []
  vExt := buildTlv ASSET_TAG (Uint256.bytes 7 ++ serUInt64 5 ++ serUInt32 0 ++ [0x02, 0x01, 1])

theorem tagReaders_agree_on_five :
    fiveUnits.assetAmount = (parseAssetTag fiveUnits.vExt).map AssetTag.amount :=
  let params : Params :=
    { hashGenesisBlock := 0, DefaultModelName := [], DefaultModelCommit := [], DefaultModelCID := [] }
  have admitted : isKnownExtension params 0 fiveUnits.vExt = true := by decide +kernel
  (tagReaders_agree (.inr admitted)).2.2

def buildAssetTagWithProposal (asset_id : Uint256) (amount : UInt64) (proposal_hash : Uint256)
    (flags : UInt32) (has_epoch : Bool) (epoch : UInt8) : Bytes :=
  buildTlv ASSET_TAG (asset_id.bytes ++ serUInt64 amount ++ serUInt32 flags ++
    (if has_epoch then [0x02, 0x01, epoch] else []) ++ 0x04 :: 32 :: proposal_hash.bytes)

theorem tagBody_buildTlv (asset_id : Uint256) (amount : UInt64) (tail : Bytes) (short : tail.length < 2 ^ 32) :
    tagBody (buildTlv ASSET_TAG (asset_id.bytes ++ (serUInt64 amount ++ tail))) =
      (tagFlags tail).map fun (flags, rest) => (asset_id, amount, flags, rest) := by
  have typed : parseTyped ASSET_TAG (buildTlv ASSET_TAG (asset_id.bytes ++ (serUInt64 amount ++ tail))) =
      some (asset_id.bytes ++ (serUInt64 amount ++ tail)) := by
    refine parseTyped_eq_some.mpr ⟨rfl, ?_⟩
    simp only [List.length_append, Uint256.bytes_length, serUInt64, leBytes_length]
    omega
  have name : takeUint256 (asset_id.bytes ++ (serUInt64 amount ++ tail)) =
      some (asset_id, serUInt64 amount ++ tail) := takeUint256_eq_some.mpr rfl
  have count : takeUInt64 (serUInt64 amount ++ tail) = some (amount, tail) := takeUInt64_eq_some.mpr rfl
  simp only [tagBody, typed, name, count, Option.bind_eq_bind, Option.bind_some]
  cases tagFlags tail <;> rfl

theorem nestedRecords_written (fuel : Nat) (proposal_hash : Uint256) (has_epoch : Bool) (epoch : UInt8) :
    nestedRecords (fuel + 2) ((if has_epoch then [0x02, 0x01, epoch] else []) ++ 0x04 :: 32 :: proposal_hash.bytes) =
      some ((if has_epoch then [.epoch epoch] else []) ++ [.proposal_hash proposal_hash]) := by
  have hash : takeUint256 proposal_hash.bytes = some (proposal_hash, []) :=
    takeUint256_eq_some.mpr (List.append_nil _).symm
  cases has_epoch <;> simp [nestedRecords, readNested, takeUInt8, hash]

theorem tagFlags_written (flags : UInt32) (tail : Bytes) : tagFlags (serUInt32 flags ++ tail) =
      if flags.toNat % 256 ≠ 2 ∧ flags.toNat % 256 ≠ 3 then some (flags, tail)
      else some (0, serUInt32 flags ++ tail) := by
  have long : 4 ≤ (serUInt32 flags ++ tail).length := by
    rw [List.length_append, serUInt32, leBytes_length]
    omega
  have first : (serUInt32 flags ++ tail).head? = some (UInt8.ofNat flags.toNat) := rfl
  have low : ∀ b : UInt8, some (UInt8.ofNat flags.toNat) ≠ some b ↔ flags.toNat % 256 ≠ b.toNat := by
    intro b
    rw [ne_eq, Option.some.injEq, ← UInt8.toNat_inj, UInt8.toNat_ofNat']
  have read : takeUInt32 (serUInt32 flags ++ tail) = some (flags, tail) := takeUInt32_eq_some.mpr rfl
  simp only [tagFlags, long, first, low, read, true_and]
  rfl

/-- A tag with a proposal is read back exactly when the low byte of its flags is no nested record's
type; a tag without flags always is. -/
theorem assetTag_survives {asset_id : Uint256} (set : asset_id ≠ 0) (amount : UInt64)
    (proposal_hash : Uint256) (flags : UInt32) (has_epoch : Bool) (epoch : UInt8) :
    (parseAssetTag (buildAssetTagWithProposal asset_id amount proposal_hash flags has_epoch epoch) =
        some { id := asset_id, amount, flags, epoch := if has_epoch then some epoch else none
               proposal_hash := some proposal_hash } ↔ flags.toNat % 256 ≠ 2 ∧ flags.toNat % 256 ≠ 3) ∧
    parseAssetTag (buildAssetTagTlv asset_id amount) = some { id := asset_id, amount } := by
  set tail : Bytes := (if has_epoch then [0x02, 0x01, epoch] else []) ++ 0x04 :: 32 :: proposal_hash.bytes
    with tail_eq
  have size : tail.length = (if has_epoch then 35 else 32) + 2 := by
    cases has_epoch <;> simp [tail_eq]
  have written : buildAssetTagWithProposal asset_id amount proposal_hash flags has_epoch epoch =
      buildTlv ASSET_TAG (asset_id.bytes ++ (serUInt64 amount ++ (serUInt32 flags ++ tail))) := by
    simp [buildAssetTagWithProposal, tail_eq]
  have short : (serUInt32 flags ++ tail).length < 2 ^ 32 := by
    rw [List.length_append, serUInt32, leBytes_length, size]
    split_ifs <;> decide
  have body := tagBody_buildTlv asset_id amount _ short
  rw [tagFlags_written] at body
  refine ⟨⟨fun whole => ?_, fun plain => ?_⟩, ?_⟩
  · -- Without flags the tag reports none, but these are not zero.
    by_contra confused
    rw [written, parseAssetTag_eq, body, if_neg confused] at whole
    simp only [Option.map_some, Option.bind_some, if_neg set, Option.map_eq_some_iff] at whole
    obtain ⟨records, _, same⟩ := whole
    have none := (foldl_absorb_front records { id := asset_id, amount }).2.2
    rw [same] at none
    simp only at none
    rw [none] at confused
    exact confused (by decide)
  · rw [written, parseAssetTag_eq, body, if_pos plain]
    have read := nestedRecords_written (if has_epoch then 35 else 32) proposal_hash has_epoch epoch
    rw [← tail_eq, ← size] at read
    simp only [Option.map_some, Option.bind_some, if_neg set, read]
    cases has_epoch <;> rfl
  · have bare := tagBody_buildTlv asset_id amount [] (by decide)
    rw [List.append_nil] at bare
    rw [buildAssetTagTlv, parseAssetTag_eq, bare]
    simp [tagFlags, set, nestedRecords]

/-- Flags with the type of an epoch in front: the tag is not read at all. -/
theorem assetTag_with_epoch_flags : parseAssetTag (buildAssetTagWithProposal 7 5 9 2 false 0) = none := by
  decide +kernel

/-- A tag with one flag and an epoch. -/
theorem assetTag_survives_with_one_flag : parseAssetTag (buildAssetTagWithProposal 7 5 9 1 true 4) =
      some { id := 7, amount := 5, flags := 1, epoch := some 4, proposal_hash := some 9 } :=
  (assetTag_survives (by decide) 5 9 1 true 4).1.mpr (by decide)

end TensorCash
