-- Token sequences that are made of blocks: some tokens that were read, and after them the
-- whole output of one generation. The rules say how the sequence, and any list of values
-- laid along it, changes when tokens are read, when a generation is added, and when read
-- tokens are taken back from the end.
import Mathlib.Algebra.BigOperators.Group.List.Basic
import Mathlib.Algebra.GroupWithZero.Nat
import Mathlib.Data.List.Flatten

namespace token_blocks

variable {τ γ β : Type*}

/-- Tokens that were read, then one generation. -/
structure Block (τ γ : Type*) where
  gap : List τ
  gen : γ

/-- Blocks in order, and the tokens that were read after the last of them. -/
structure Layout (τ γ : Type*) where
  blocks : List (Block τ γ)
  gap : List τ

section Blocks

variable (out : γ → List τ)

def blockTokens (bs : List (Block τ γ)) : List τ := bs.flatMap (fun b => b.gap ++ out b.gen)

/-- Values laid along the blocks: `z` for each token read, `val g` along the output of `g`. -/
def blockValues (z : β) (val : γ → List β) (bs : List (Block τ γ)) : List β :=
  bs.flatMap (fun b => List.replicate b.gap.length z ++ val b.gen)

/-- Each generation was given the tokens before its output, `start` included. -/
def Anchored (given : γ → List τ) (start : List τ) : List (Block τ γ) → Prop
  | [] => True
  | b :: rest =>
    given b.gen = start ++ b.gap ∧ Anchored given (start ++ (b.gap ++ out b.gen)) rest

end Blocks

variable {out : γ → List τ} {given : γ → List τ} {start : List τ}

@[simp] theorem blockTokens_nil : blockTokens out ([] : List (Block τ γ)) = [] := rfl

theorem blockTokens_append (bs cs : List (Block τ γ)) :
    blockTokens out (bs ++ cs) = blockTokens out bs ++ blockTokens out cs := by
  simp [blockTokens]

theorem anchored_append (bs cs : List (Block τ γ)) :
    Anchored out given start (bs ++ cs) ↔
      Anchored out given start bs ∧ Anchored out given (start ++ blockTokens out bs) cs := by
  induction bs generalizing start with
  | nil => simp [Anchored]
  | cons b rest ih =>
    simp only [List.cons_append, Anchored, ih, and_assoc]
    simp [blockTokens]

/-- What the generation of one block was given: everything up to the block's output. -/
theorem Anchored.given_eq {before after : List (Block τ γ)} {b : Block τ γ}
    (h : Anchored out given start (before ++ b :: after)) :
    given b.gen = start ++ (blockTokens out before ++ b.gap) := by
  have := ((anchored_append _ _).mp h).2.1
  rw [this, List.append_assoc]

namespace Layout

variable (out) in
def tokens (l : Layout τ γ) : List τ := blockTokens out l.blocks ++ l.gap

def values (z : β) (val : γ → List β) (l : Layout τ γ) : List β :=
  blockValues z val l.blocks ++ List.replicate l.gap.length z

def empty : Layout τ γ := ⟨[], []⟩

/-- Tokens read at the end. -/
def read (l : Layout τ γ) (ids : List τ) : Layout τ γ := { l with gap := l.gap ++ ids }

variable (out) in
/-- A generation at the end. One that has no output makes no block. -/
def push [DecidableEq τ] (l : Layout τ γ) (g : γ) : Layout τ γ :=
  if out g = [] then l else ⟨l.blocks ++ [⟨l.gap, g⟩], []⟩

@[simp] theorem tokens_empty : (empty : Layout τ γ).tokens out = [] := rfl

@[simp] theorem values_empty (z : β) (val : γ → List β) :
    (empty : Layout τ γ).values z val = [] := rfl

@[simp] theorem blocks_read (l : Layout τ γ) (ids : List τ) : (l.read ids).blocks = l.blocks :=
  rfl

@[simp] theorem tokens_read (l : Layout τ γ) (ids : List τ) :
    (l.read ids).tokens out = l.tokens out ++ ids := by
  simp [tokens, read]

@[simp] theorem values_read (z : β) (val : γ → List β) (l : Layout τ γ) (ids : List τ) :
    (l.read ids).values z val = l.values z val ++ List.replicate ids.length z := by
  simp only [values, read, List.length_append, List.replicate_add, List.append_assoc]

section Push

variable [DecidableEq τ]

@[simp] theorem tokens_push (l : Layout τ γ) (g : γ) :
    (l.push out g).tokens out = l.tokens out ++ out g := by
  unfold push
  split
  · rename_i hg
    simp [hg]
  · simp [tokens, blockTokens]

theorem values_push (z : β) (val : γ → List β) (l : Layout τ γ) (g : γ)
    (hg : (val g).length = (out g).length) :
    (l.push out g).values z val = l.values z val ++ val g := by
  unfold push
  split
  · rename_i he
    have : val g = [] := by simpa [he] using hg
    simp [this]
  · simp [values, blockValues]

theorem gens_push (l : Layout τ γ) (g : γ) :
    (l.push out g).blocks.map Block.gen =
      l.blocks.map Block.gen ++ [g].filter (fun g => out g ≠ []) := by
  unfold push
  split
  · rename_i hg
    simp [hg]
  · rename_i hg
    simp [hg]

theorem anchored_push (l : Layout τ γ) (g : γ) (h : Anchored out given start l.blocks)
    (hg : given g = start ++ l.tokens out) :
    Anchored out given start (l.push out g).blocks := by
  unfold push
  split
  · exact h
  · refine (anchored_append _ _).mpr ⟨h, ?_, trivial⟩
    simp [hg, tokens]

end Push

/-- Values that are as many as the tokens of each generation are as many as all tokens. -/
theorem length_values (z : β) (val : γ → List β) (l : Layout τ γ)
    (hval : ∀ b ∈ l.blocks, (val b.gen).length = (out b.gen).length) :
    (l.values z val).length = (l.tokens out).length := by
  have hblocks : ∀ bs : List (Block τ γ),
      (∀ b ∈ bs, (val b.gen).length = (out b.gen).length) →
        (blockValues z val bs).length = (blockTokens out bs).length := by
    intro bs
    induction bs with
    | nil => exact fun _ => rfl
    | cons b rest ih =>
      intro h
      have hrest := ih (fun c hc => h c (by simp [hc]))
      have hb := h b (by simp)
      simp only [blockValues, blockTokens, List.flatMap_cons, List.length_append,
        List.length_replicate] at hrest ⊢
      omega
  simp [values, tokens, hblocks l.blocks hval]

/-! ## Tokens taken back

A rewrite takes back tokens at the end of the sequence. It is sound when those tokens were
read, not generated. -/

/-- The tokens at the end were read, so they can be taken back. -/
theorem exists_read {l : Layout τ γ} {ids : List τ} (hs : ids <:+ l.tokens out)
    (hl : ids.length ≤ l.gap.length) : ∃ l' : Layout τ γ, l'.blocks = l.blocks ∧
    l = l'.read ids := by
  obtain ⟨rest, hrest⟩ := List.suffix_of_suffix_length_le hs (List.suffix_append _ l.gap) hl
  refine ⟨⟨l.blocks, rest⟩, rfl, ?_⟩
  obtain ⟨blocks, gap⟩ := l
  simp only [read, Layout.mk.injEq, true_and]
  exact hrest.symm

/-- No block is empty, and the gap at the end is empty, or has room for `n` tokens, or is
all there is. -/
def Roomy (out : γ → List τ) (n : Nat) (l : Layout τ γ) : Prop :=
  (∀ b ∈ l.blocks, out b.gen ≠ []) ∧ (l.gap = [] ∨ n ≤ l.gap.length ∨ l.blocks = [])

theorem roomy_empty (n : Nat) : (empty : Layout τ γ).Roomy out n :=
  ⟨by simp [empty], Or.inl rfl⟩

theorem Roomy.read {l : Layout τ γ} {n : Nat} (h : l.Roomy out n) {ids : List τ}
    (hids : ids = [] ∨ n ≤ ids.length) : (l.read ids).Roomy out n := by
  refine ⟨h.1, ?_⟩
  rcases hids with rfl | hlen
  · simpa [Layout.read] using h.2
  · exact Or.inr (Or.inl (by simp [Layout.read]; omega))

theorem Roomy.push [DecidableEq τ] {l : Layout τ γ} {n : Nat} (h : l.Roomy out n) (g : γ) :
    (l.push out g).Roomy out n := by
  unfold Layout.push
  split
  · exact h
  · rename_i hg
    refine ⟨?_, Or.inl rfl⟩
    intro b hb
    rcases List.mem_append.mp hb with hb | hb
    · exact h.1 b hb
    · cases List.mem_singleton.mp hb
      exact hg

/-- Tokens whose last one ends no generation are at the end of the sequence only when they
were read there. -/
theorem Roomy.length_le_gap {l : Layout τ γ} {ids : List τ} (h : l.Roomy out ids.length)
    (hne : ids ≠ []) (hlast : ∀ b ∈ l.blocks, (out b.gen).getLast? ≠ ids.getLast?)
    (hs : ids <:+ l.tokens out) : ids.length ≤ l.gap.length := by
  rcases h.2 with hgap | hgap | hblocks
  · exfalso
    rw [tokens, hgap, List.append_nil] at hs
    rcases List.eq_nil_or_concat l.blocks with hnil | ⟨before, b, hb⟩
    · rw [hnil, blockTokens_nil] at hs
      exact hne (List.eq_nil_of_suffix_nil hs)
    · have hmem : b ∈ l.blocks := by simp [hb]
      apply hlast b hmem
      obtain ⟨rest, hrest⟩ := hs
      rw [hb, List.concat_eq_append, blockTokens_append] at hrest
      have hout := h.1 b hmem
      have := congrArg List.getLast? hrest
      simpa [blockTokens, List.getLast?_append, List.getLast?_eq_some_getLast hne,
        List.getLast?_eq_some_getLast hout] using this.symm
  · exact hgap
  · have := hs.length_le
    simpa [tokens, hblocks] using this

end Layout

/-! ## The ones of a mask -/

/-- In the mask of a layout, the ones are the tokens that were generated. -/
theorem count_blockMask (bs : List (Block τ γ)) :
    (blockValues 0 (fun g => List.replicate (out g).length 1) bs).count 1 =
      (bs.map (fun b => (out b.gen).length)).sum := by
  induction bs with
  | nil => rfl
  | cons b rest ih =>
    rw [blockValues] at ih
    simp [blockValues, List.count_append, List.count_replicate, ih]

theorem Layout.count_mask (l : Layout τ γ) :
    (l.values 0 (fun g => List.replicate (out g).length 1)).count 1 =
      (l.blocks.map (fun b => (out b.gen).length)).sum := by
  simp [Layout.values, List.count_append, List.count_replicate, count_blockMask]

end token_blocks
