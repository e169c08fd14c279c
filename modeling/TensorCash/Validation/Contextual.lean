import TensorCash.Validation.RegChain

/-! `ContextualCheckBlock` reads the model registry of the active tip, on whichever branch the
parent lies. -/

namespace TensorCash

open Checked

section Reading

variable {env : NodeEnv} {db db' : ModelDb} {block : CBlock}

end Reading

namespace RegChain

def forkBlock : CBlock :=
  let pow : CProofBlob := { pow with model_identifier := ascii ['n', '@', 'c'] }
  let body : CBlock := { vtx := [coinbase 1 1 [payAnyone 100]], pow, cumulative_tick := 20 }
  { body with
    hashPrevBlock := genesis.getHash crypto
    hashMerkleRoot := blockMerkleRoot crypto body
    nBits := 0x207fffff
    nAdjBits := 0x207fffff
    hashPoW := pow.getCommitment crypto true }

end RegChain

end TensorCash
