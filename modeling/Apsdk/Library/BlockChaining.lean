import Mathlib.Data.List.Basic

/-! Chains of blocks: each block is added to the one that was encrypted before it. Only
the block before is needed to decrypt one, and a chain can be cut wherever a block ends. -/

namespace Library

/-- A cipher for blocks, with what is added to them. -/
structure BlockCodec (Block : Type*) where
  add : Block → Block → Block
  encrypt : Block → Block
  decrypt : Block → Block
  add_cancel : ∀ block other, add (add block other) other = block
  decrypt_encrypt : ∀ block, decrypt (encrypt block) = block

namespace BlockCodec
variable {Block : Type*} (codec : BlockCodec Block)

def chain : Block → List Block → List Block
  | _, [] => []
  | iv, block :: later => codec.encrypt (codec.add block iv) :: chain (codec.encrypt (codec.add block iv)) later

def unchain : Block → List Block → List Block
  | _, [] => []
  | iv, block :: later => codec.add (codec.decrypt block) iv :: unchain block later

/-- The block that the next one is added to. -/
def carried (iv : Block) (blocks : List Block) : Block := blocks.getLastD iv

theorem carried_cons (iv block : Block) (later : List Block) : carried iv (block :: later) = carried block later := by
  cases later <;> rfl

theorem length_chain (iv : Block) (blocks : List Block) : (codec.chain iv blocks).length = blocks.length := by
  induction blocks generalizing iv with
  | nil => rfl
  | cons block later ih => exact congrArg Nat.succ (ih _)

theorem chain_append (iv : Block) (first second : List Block) :
    codec.chain iv (first ++ second) = codec.chain iv first ++ codec.chain (carried iv (codec.chain iv first)) second := by
  induction first generalizing iv with
  | nil => rfl
  | cons block later ih => rw [List.cons_append, chain, chain, ih, carried_cons, List.cons_append]

theorem unchain_chain (iv : Block) (blocks : List Block) : codec.unchain iv (codec.chain iv blocks) = blocks := by
  induction blocks generalizing iv with
  | nil => rfl
  | cons block later ih => rw [chain, unchain, codec.decrypt_encrypt, codec.add_cancel, ih]

end BlockCodec
end Library
