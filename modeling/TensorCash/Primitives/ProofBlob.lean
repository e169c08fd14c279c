import TensorCash.Lib.Merkle
import TensorCash.Primitives.Block

/-! The two commitments to a proof blob that a header may carry in `hashPoW`, and the transaction
trees of a block. -/

namespace TensorCash

def serWords (v : List UInt32) : Bytes := serVector serUInt32 v

def CProofBlob.serialize : CProofBlob → Bytes := CProofBlob.evalOn fun p =>
  List.flatten [[p.version], serUInt64 p.tick, serUInt64 p.timestamp, serBytes p.target,
    serBytes p.vdf, serBytes p.hash, serBytes p.block_hash, serBytes p.header_prefix,
    [if p.is_solution then 1 else 0], serBytes p.model_identifier,
    serBytes p.compute_precision, serBytes p.ipfs_cid, serBytes p.extra_flags,
    serUInt32 p.temperature, serUInt32 p.top_p, serUInt32 p.top_k,
    serUInt32 p.repetition_penalty, serWords p.chosen_tokens, serWords p.chosen_probs,
    serWords p.sampling_u, serWords p.softmax_normalizers, serWords p.prompt_tokens,
    serBytes p.pad_mask, serVector serWords p.topk_logits, serVector serWords p.topk_indices,
    serVector serWords p.logsumexp_stats]

def Crypto.hashPair (c : Crypto) (a b : Uint256) : Uint256 := c.hash (a.bytes ++ b.bytes)

def computeMerkleRoot (c : Crypto) (hashes : List Uint256) : Uint256 := Merkle.root c.hashPair 0 hashes

def powLeafHash (c : Crypto) (tag : UInt8) (data : Bytes) : Uint256 :=
  c.hash ([0xff, 80, 79, 87, 0, tag] ++ Codec.leBytes 4 data.length ++ data)

def CProofBlob.getHash (c : Crypto) (p : CProofBlob) : Uint256 := c.hash p.serialize

def CProofBlob.getMerkleRoot (c : Crypto) : CProofBlob → Uint256 := CProofBlob.evalOn fun p =>
  computeMerkleRoot c [powLeafHash c 0x01 (serUInt64 p.tick), powLeafHash c 0x02 p.vdf,
    powLeafHash c 0x03 (p.version :: (p.getModelHash c).bytes), powLeafHash c 0x04 p.serialize]

def CProofBlob.getCommitment (c : Crypto) (use_merkle : Bool) (p : CProofBlob) : Uint256 :=
  if use_merkle then p.getMerkleRoot c else p.getHash c

def CTransaction.txid (c : Crypto) (tx : CTransaction) : Uint256 := tx.computeHash c.hash

def blockMerkleRoot (c : Crypto) (block : CBlock) : Uint256 :=
  computeMerkleRoot c (block.vtx.map (CTransaction.txid c))

def blockMutated (c : Crypto) (block : CBlock) : Bool :=
  Merkle.mutated c.hashPair (block.vtx.map (CTransaction.txid c))

def blockWitnessMerkleRoot (c : Crypto) (block : CBlock) : Uint256 :=
  computeMerkleRoot c
    (0 :: block.vtx.tail.map (CTransaction.computeWitnessHash c.hash))

/-- Header with flags, transactions, proof blob and running tick count. -/
def CBlock.getSerializeSize (allowWitness : Bool) (block : CBlock) : Nat :=
  117 + sizeVector (CTransaction.getSerializeSize allowWitness) block.vtx + block.pow.serialize.length + 8

end TensorCash
