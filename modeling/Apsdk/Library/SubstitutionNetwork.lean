import Mathlib.Data.List.Basic

/-! Ciphers that substitute, permute, mix and add a round key in every round but the
last, which does not mix. The inverse can be computed by rounds of the same shape, from
a key schedule of its own. -/

namespace Library

/-- The layers of a round, with their inverses. -/
structure RoundLayers (Block : Type*) where
  add : Block → Block → Block
  substitute : Block → Block
  unsubstitute : Block → Block
  shift : Block → Block
  unshift : Block → Block
  mix : Block → Block
  unmix : Block → Block
  add_cancel : ∀ block key, add (add block key) key = block
  unsubstitute_substitute : ∀ block, unsubstitute (substitute block) = block
  unshift_shift : ∀ block, unshift (shift block) = block
  unmix_mix : ∀ block, unmix (mix block) = block
  unmix_add : ∀ first second, unmix (add first second) = add (unmix first) (unmix second)

/-- The keys of a cipher: one before the rounds, one for each round. -/
@[ext] structure RoundKeys (Block : Type*) where
  first : Block
  middle : List Block
  last : Block

namespace RoundLayers
variable {Block : Type*} (layers : RoundLayers Block)

/-- The rounds that mix. -/
def rounds : List Block → Block → Block
  | [], block => block
  | key :: later, block => rounds later (layers.add (layers.mix (layers.shift (layers.substitute block))) key)

def encrypt (keys : RoundKeys Block) (block : Block) : Block :=
  layers.add (layers.shift (layers.substitute (layers.rounds keys.middle (layers.add block keys.first)))) keys.last

/-- The rounds that undo the mixing, each before its key is added. -/
def unrounds : List Block → Block → Block
  | [], block => block
  | key :: later, block => unrounds later (layers.add (layers.unmix (layers.unsubstitute (layers.unshift block))) key)

/-- Decryption by rounds of the same shape. -/
def decrypt (keys : RoundKeys Block) (block : Block) : Block :=
  layers.add (layers.unsubstitute (layers.unshift (layers.unrounds keys.middle (layers.add block keys.first)))) keys.last

/-- The schedule for decryption: the keys in reverse, those in the middle unmixed. -/
def invert (keys : RoundKeys Block) : RoundKeys Block := ⟨keys.last, (keys.middle.map layers.unmix).reverse, keys.first⟩

theorem rounds_append (first second : List Block) (block : Block) :
    layers.rounds (first ++ second) block = layers.rounds second (layers.rounds first block) := by
  induction first generalizing block with
  | nil => rfl
  | cons key later ih => exact ih _

theorem unrounds_append (first second : List Block) (block : Block) :
    layers.unrounds (first ++ second) block = layers.unrounds second (layers.unrounds first block) := by
  induction first generalizing block with
  | nil => rfl
  | cons key later ih => exact ih _

/-- A round undone, seen from behind the permutation of the round that follows it. -/
theorem unround_round (key block : Block) :
    layers.add (layers.unmix (layers.unsubstitute (layers.unshift (layers.shift (layers.substitute
      (layers.add (layers.mix (layers.shift (layers.substitute block))) key)))))) (layers.unmix key) =
      layers.shift (layers.substitute block) := by
  rw [layers.unshift_shift, layers.unsubstitute_substitute, layers.unmix_add, layers.unmix_mix, layers.add_cancel]

theorem unrounds_rounds (keys : List Block) (block : Block) :
    layers.unrounds (keys.map layers.unmix).reverse (layers.shift (layers.substitute (layers.rounds keys block))) =
      layers.shift (layers.substitute block) := by
  induction keys generalizing block with
  | nil => rfl
  | cons key later ih =>
    rw [List.map_cons, List.reverse_cons, unrounds_append, rounds, ih]
    exact layers.unround_round key block

theorem decrypt_encrypt (keys : RoundKeys Block) (block : Block) :
    layers.decrypt (layers.invert keys) (layers.encrypt keys block) = block := by
  have undone := layers.unrounds_rounds keys.middle (layers.add block keys.first)
  rw [decrypt, invert, encrypt, layers.add_cancel, undone, layers.unshift_shift, layers.unsubstitute_substitute,
    layers.add_cancel]

end RoundLayers
end Library
