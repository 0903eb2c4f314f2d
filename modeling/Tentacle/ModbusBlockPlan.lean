import Mathlib.Data.List.Nodup
import Tentacle.ModbusReadBlocks

/-!
# The plan of the read blocks

The tags of a function code are sorted by address and merged, each with the block before it or into
a block of its own. A block spans at most fourteen registers for each of its tags, so the sums of
an `int` stay exact for every number of tags that fits into memory.
-/

namespace ModbusBlockPlan

open GoValues ModbusCodec ModbusReadBlocks
open ModbusScanner (ModbusTagConfig fcNameToCode)

/-- The groups when none is left out: each tag has the group of its function code. -/
structure Groups (tags : GoMap String ModbusTagConfig)
    (groups : List (Nat × List ModbusTagConfig)) : Prop extends Grouping tags groups where
  covers : ∀ e ∈ tags.entries, ∃ g ∈ groups, g.1 = fcNameToCode e.2.functionCode

/-- The address of a tag is an `int` that is not negative. -/
def Numbered (tag : ModbusTagConfig) : Prop := 0 ≤ tag.address ∧ tag.address < 2 ^ 63

/-- The tags of a block, in the order in which they were added. -/
def planned (block : ReadBlock) : List ModbusTagConfig := block.tags.map (·.tag)

/-- A slice of `2 ^ 59` tags is larger than the address space. -/
def FitsInMemory (n : Nat) : Prop := n < 2 ^ 59

/-! ## One block -/

/-- Each tag has its registers in the block, and the block is no longer than its tags allow. -/
structure Plan (fc : Nat) (block : ReadBlock) : Prop where
  functionCode : block.functionCode = fc
  start : 0 ≤ block.startAddr ∧ block.startAddr < 2 ^ 63
  count : 0 ≤ block.count ∧ block.count ≤ 14 * block.tags.length
  address : ∀ t ∈ block.tags, block.startAddr + t.offset = t.tag.address
  fits : ∀ t ∈ block.tags, t.offset + regSize t.tag ≤ block.count

/-- A block of one tag keeps to the plan. -/
theorem plan_newBlock (fc : Nat) {tag : ModbusTagConfig} (h : Numbered tag) :
    Plan fc (newBlock fc tag) := by
  have hsize := regSize_le tag
  refine ⟨rfl, h, ?_, ?_, ?_⟩
  · simp only [newBlock, List.length_singleton]
    omega
  · intro t ht
    obtain rfl := List.mem_singleton.mp ht
    exact add_zero _
  · intro t ht
    obtain rfl := List.mem_singleton.mp ht
    exact (zero_add _).le

/-- The end of the block may be past the largest `int`, but the gap behind it is not. -/
theorem gap_eq {fc : Nat} {block : ReadBlock} (h : Plan fc block) {tag : ModbusTagConfig}
    (htag : Numbered tag) (hle : block.startAddr ≤ tag.address)
    (hlength : FitsInMemory block.tags.length) :
    int64 (tag.address - int64 (block.startAddr + block.count)) =
      tag.address - (block.startAddr + block.count) := by
  obtain ⟨hstart, -⟩ := h.start
  obtain ⟨hcount, hspan⟩ := h.count
  obtain ⟨-, haddress⟩ := htag
  rw [FitsInMemory] at hlength
  rw [int64, int64, Int.sub_bmod_bmod]
  exact int64_of_small (by omega) (by omega)

/-- A tag that is close enough goes into the block. -/
theorem Plan.extend {fc : Nat} {block : ReadBlock} (h : Plan fc block) {tag : ModbusTagConfig}
    (htag : Numbered tag) (hle : block.startAddr ≤ tag.address)
    (hgap : tag.address - (block.startAddr + block.count) ≤ maxGap)
    (hlength : FitsInMemory (block.tags.length + 1)) : Plan fc (extendBlock block tag) := by
  have hsize := regSize_le tag
  obtain ⟨hstart, -⟩ := h.start
  obtain ⟨hcount, hspan⟩ := h.count
  obtain ⟨-, haddress⟩ := htag
  rw [maxGap] at hgap
  rw [FitsInMemory] at hlength
  have hsum : int64 (int64 (tag.address + regSize tag) - block.startAddr) =
      tag.address + regSize tag - block.startAddr := by
    rw [int64, int64, Int.bmod_sub_bmod]
    exact int64_of_small (by omega) (by omega)
  have hoffset : int64 (tag.address - block.startAddr) = tag.address - block.startAddr :=
    int64_of_small (by omega) (by omega)
  rw [extendBlock, hsum, hoffset]
  refine ⟨h.functionCode, h.start, ?_, ?_, ?_⟩
  · simp only [List.length_append, List.length_singleton]
    split <;> omega
  · intro t ht
    obtain ht | ht := List.mem_append.mp ht
    · exact h.address t ht
    · obtain rfl := List.mem_singleton.mp ht
      exact add_sub_cancel _ _
  · intro t ht
    obtain ht | ht := List.mem_append.mp ht
    · have hold := h.fits t ht
      dsimp only
      split <;> omega
    · obtain rfl := List.mem_singleton.mp ht
      dsimp only
      split <;> omega

theorem planned_newBlock (fc : Nat) (tag : ModbusTagConfig) : planned (newBlock fc tag) = [tag] :=
  rfl

theorem planned_extendBlock (block : ReadBlock) (tag : ModbusTagConfig) :
    planned (extendBlock block tag) = planned block ++ [tag] := by
  rw [planned, extendBlock, List.map_append, List.map_singleton, planned]

theorem length_planned (block : ReadBlock) : (planned block).length = block.tags.length :=
  List.length_map _

/-! ## The merge -/

/-- The merge leaves the sorted tags in their order. -/
theorem planned_mergeBlocks (fc : Nat) (tags : List ModbusTagConfig) (current : Option ReadBlock) :
    (mergeBlocks fc current tags).flatMap planned = current.toList.flatMap planned ++ tags := by
  induction tags generalizing current with
  | nil => rw [mergeBlocks, List.append_nil]
  | cons tag tags ih =>
    cases current with
    | none =>
      rw [mergeBlocks, ih]
      rfl
    | some block =>
      rw [mergeBlocks]
      split
      · rw [ih]
        simp only [Option.toList_some, List.flatMap_singleton, planned_extendBlock,
          List.append_assoc, List.singleton_append]
      · rw [List.flatMap_cons, ih]
        simp only [Option.toList_some, List.flatMap_singleton, planned_newBlock,
          List.singleton_append]

/-- Every block of the merge keeps to the plan. -/
theorem plan_mergeBlocks (fc : Nat) {tags : List ModbusTagConfig}
    (htags : ∀ tag ∈ tags, Numbered tag)
    (hsorted : tags.Pairwise fun t u => t.address ≤ u.address) (hlength : FitsInMemory tags.length) :
    ∀ block ∈ mergeBlocks fc none tags, Plan fc block := by
  apply mergeBlocks_induct (P := Plan fc)
    (L := fun tags => (∀ tag ∈ tags, Numbered tag) ∧
      (tags.Pairwise fun t u => t.address ≤ u.address) ∧ FitsInMemory tags.length)
    (I := fun tags block => Plan fc block ∧ (∀ tag ∈ tags, block.startAddr ≤ tag.address) ∧
      FitsInMemory (block.tags.length + tags.length))
  · rintro tag tags ⟨htags, hsorted, hlength⟩
    rw [FitsInMemory, List.length_cons] at hlength
    refine ⟨(List.forall_mem_cons.mp htags).2, (List.pairwise_cons.mp hsorted).2, ?_⟩
    rw [FitsInMemory]
    omega
  · rintro tag tags ⟨htags, hsorted, hlength⟩
    rw [List.length_cons, add_comm] at hlength
    exact ⟨plan_newBlock fc (htags tag List.mem_cons_self), (List.pairwise_cons.mp hsorted).1,
      hlength⟩
  · rintro block tag tags ⟨htags, -, -⟩ ⟨hplan, hstart, hlength⟩ hgap
    have htag := htags tag List.mem_cons_self
    obtain ⟨hstart, hstarts⟩ := List.forall_mem_cons.mp hstart
    rw [FitsInMemory, List.length_cons] at hlength
    rw [gap_eq hplan htag hstart (by rw [FitsInMemory]; omega)] at hgap
    refine ⟨hplan.extend htag hstart hgap (by rw [FitsInMemory]; omega), hstarts, ?_⟩
    rw [← length_planned, planned_extendBlock, List.length_append, length_planned, FitsInMemory,
      List.length_singleton]
    omega
  · exact fun tags block h => h.1
  · exact ⟨htags, hsorted, hlength⟩
  · simp

/-! ## All blocks -/

variable {tags : GoMap String ModbusTagConfig} {groups : List (Nat × List ModbusTagConfig)}

theorem planned_buildReadBlocks (groups : List (Nat × List ModbusTagConfig)) :
    (buildReadBlocks groups).flatMap planned = groups.flatMap (·.2) := by
  rw [buildReadBlocks, List.flatMap_assoc]
  congr 1
  funext g
  rw [planned_mergeBlocks]
  rfl

/-- A tag is in the group of its function code and in no other. -/
theorem mem_group_iff (h : Grouping tags groups) {g : Nat × List ModbusTagConfig}
    (hg : g ∈ groups) {tag : ModbusTagConfig} :
    tag ∈ g.2 ↔ tag ∈ tags.entries.map (·.2) ∧ fcNameToCode tag.functionCode = g.1 := by
  rw [(h.perm g hg).mem_iff, List.mem_filter, decide_eq_true_eq]

theorem mem_planned_iff (h : Groups tags groups) {tag : ModbusTagConfig} :
    tag ∈ groups.flatMap (·.2) ↔ tag ∈ tags.entries.map (·.2) := by
  rw [List.mem_flatMap]
  constructor
  · rintro ⟨g, hg, htag⟩
    exact ((mem_group_iff h.toGrouping hg).mp htag).1
  · intro htag
    obtain ⟨e, he, rfl⟩ := List.mem_map.mp htag
    obtain ⟨g, hg, hfc⟩ := h.covers e he
    exact ⟨g, hg, (mem_group_iff h.toGrouping hg).mpr ⟨htag, hfc.symm⟩⟩

/-- The groups have no ID twice. -/
theorem nodup_planned (h : Grouping tags groups) (hids : (tags.entries.map (·.2.id)).Nodup) :
    ((groups.flatMap (·.2)).map (·.id)).Nodup := by
  have hids' : ((tags.entries.map (·.2)).map (·.id)).Nodup := by
    rw [List.map_map]
    exact hids
  rw [List.map_flatMap, List.nodup_flatMap]
  constructor
  · intro g hg
    exact ((h.perm g hg).map _).nodup_iff.mpr (hids'.sublist (List.filter_sublist.map _))
  · have hcodes : groups.Pairwise fun g g' => g.1 ≠ g'.1 := List.pairwise_map.mp h.nodup
    refine List.Pairwise.imp_of_mem ?_ hcodes
    intro g g' hg hg' hne
    change List.Disjoint (g.2.map (·.id)) (g'.2.map (·.id))
    intro id hid hid'
    obtain ⟨t, ht, rfl⟩ := List.mem_map.mp hid
    obtain ⟨t', ht', heq⟩ := List.mem_map.mp hid'
    obtain ⟨hmem, hfc⟩ := (mem_group_iff h hg).mp ht
    obtain ⟨hmem', hfc'⟩ := (mem_group_iff h hg').mp ht'
    have hsame : t' = t := List.inj_on_of_nodup_map hids' hmem' hmem heq
    exact hne (by rw [← hfc, ← hfc', hsame])

theorem length_group_le (h : Grouping tags groups) {g : Nat × List ModbusTagConfig}
    (hg : g ∈ groups) : g.2.length ≤ tags.entries.length := by
  calc g.2.length
      ≤ (tags.entries.map (·.2)).length := (h.perm g hg).length_eq ▸ List.length_filter_le _ _
    _ = tags.entries.length := List.length_map _

/-- Every block keeps to the plan of its group. -/
theorem plan_buildReadBlocks (h : Grouping tags groups)
    (haddress : ∀ e ∈ tags.entries, Numbered e.2) (hlength : FitsInMemory tags.entries.length)
    {block : ReadBlock} (hblock : block ∈ buildReadBlocks groups) :
    ∃ g ∈ groups, Plan g.1 block ∧ ∀ t ∈ block.tags, t.tag ∈ g.2 := by
  obtain ⟨g, hg, hmem⟩ := List.mem_flatMap.mp hblock
  have hnumbered : ∀ tag ∈ g.2, Numbered tag := by
    intro tag htag
    obtain ⟨e, he, rfl⟩ := List.mem_map.mp ((mem_group_iff h hg).mp htag).1
    exact haddress e he
  have hlength' : FitsInMemory g.2.length := (length_group_le h hg).trans_lt hlength
  refine ⟨g, hg, plan_mergeBlocks g.1 hnumbered (h.sorted g hg) hlength' block hmem, ?_⟩
  intro t ht
  have hplanned : t.tag ∈ (mergeBlocks g.1 none g.2).flatMap planned :=
    List.mem_flatMap.mpr ⟨block, hmem, List.mem_map_of_mem ht⟩
  rw [planned_mergeBlocks] at hplanned
  exact hplanned

/-- What the plan has for a tag: an entry of a block of its function code, at its address, with as
many registers as are read for the tag. -/
structure Placed (tag : ModbusTagConfig) (block : ReadBlock) (t : TagInBlock) : Prop where
  mem : t ∈ block.tags
  entry : t.tag = tag
  functionCode : block.functionCode = fcNameToCode tag.functionCode
  address : block.startAddr + t.offset = tag.address
  fits : t.offset + regSize tag ≤ block.count

/-- Every tag is in one block, once. One bit is read for a coil or a discrete input, whatever its
datatype is, and the registers of the datatype for the others. -/
theorem buildReadBlocks_places (h : Groups tags groups)
    (hids : (tags.entries.map (·.2.id)).Nodup) (haddress : ∀ e ∈ tags.entries, Numbered e.2)
    (hlength : FitsInMemory tags.entries.length) :
    ∀ e ∈ tags.entries, ∃ (i : Nat) (block : ReadBlock) (t : TagInBlock),
      (buildReadBlocks groups)[i]? = some block ∧ Placed e.2 block t ∧
        ∀ (j : Nat) (block' : ReadBlock) (t' : TagInBlock),
          (buildReadBlocks groups)[j]? = some block' → t' ∈ block'.tags → t'.tag.id = e.2.id →
            j = i ∧ t' = t := by
  intro e he
  have hplanned : e.2 ∈ (buildReadBlocks groups).flatMap planned := by
    rw [planned_buildReadBlocks, mem_planned_iff h]
    exact List.mem_map_of_mem he
  obtain ⟨block, hblock, hmem⟩ := List.mem_flatMap.mp hplanned
  obtain ⟨i, hi⟩ := List.mem_iff_getElem?.mp hblock
  obtain ⟨t, ht, htag⟩ := List.mem_map.mp hmem
  obtain ⟨g, hg, hplan, hgroup⟩ := plan_buildReadBlocks h.toGrouping haddress hlength hblock
  have hfc := ((mem_group_iff h.toGrouping hg).mp (hgroup t ht)).2
  have hnodup := nodup_planned h.toGrouping hids
  rw [← planned_buildReadBlocks, List.map_flatMap, List.nodup_flatMap] at hnodup
  obtain ⟨hinner, houter⟩ := hnodup
  refine ⟨i, block, t, hi, ⟨ht, htag, ?_, ?_, ?_⟩, ?_⟩
  · rw [hplan.functionCode, ← hfc, htag]
  · rw [← htag]
    exact hplan.address t ht
  · rw [← htag]
    exact hplan.fits t ht
  · intro j block' t' hj ht' hid
    have hid' : t'.tag.id = t.tag.id := hid.trans (congrArg _ htag.symm)
    have hin : t.tag.id ∈ (planned block).map (·.id) :=
      List.mem_map_of_mem (List.mem_map_of_mem ht)
    have hin' : t.tag.id ∈ (planned block').map (·.id) := by
      rw [← hid']
      exact List.mem_map_of_mem (List.mem_map_of_mem ht')
    have hij : j = i := by
      by_contra hne
      obtain ⟨hjlt, rfl⟩ := List.getElem?_eq_some_iff.mp hj
      obtain ⟨hilt, rfl⟩ := List.getElem?_eq_some_iff.mp hi
      obtain hlt | hlt := Nat.lt_or_gt_of_ne hne
      · exact List.disjoint_left.mp (List.pairwise_iff_getElem.mp houter j i hjlt hilt hlt) hin' hin
      · exact List.disjoint_left.mp (List.pairwise_iff_getElem.mp houter i j hilt hjlt hlt) hin hin'
    subst hij
    obtain rfl : block' = block := Option.some.inj (hj.symm.trans hi)
    refine ⟨rfl, List.inj_on_of_nodup_map (f := fun u : TagInBlock => u.tag.id) ?_ ht' ht hid'⟩
    have hblockIds := hinner _ hblock
    rw [planned, List.map_map] at hblockIds
    exact hblockIds

/-- The one group of the two holding registers. -/
def holdingGroup : List (Nat × List ModbusTagConfig) :=
  [(3, [holdingTag "a" 0, holdingTag "b" 1])]

/-- The groups of the example are those of its tags. -/
theorem groups_holdingGroup : Groups twoHoldingTags holdingGroup where
  nodup := by decide
  perm := by
    intro g hg
    obtain rfl := List.mem_singleton.mp hg
    exact List.Perm.swap _ _ _
  sorted := by
    intro g hg
    obtain rfl := List.mem_singleton.mp hg
    decide
  covers := by
    intro e he
    exact ⟨_, List.mem_singleton_self _, by revert e; decide⟩

theorem buildReadBlocks_places_holding :
    ∃ (i : Nat) (block : ReadBlock) (t : TagInBlock),
      (buildReadBlocks holdingGroup)[i]? = some block ∧ Placed (holdingTag "b" 1) block t ∧
        ∀ (j : Nat) (block' : ReadBlock) (t' : TagInBlock),
          (buildReadBlocks holdingGroup)[j]? = some block' → t' ∈ block'.tags →
            t'.tag.id = "b" → j = i ∧ t' = t :=
  buildReadBlocks_places groups_holdingGroup (by decide)
    (by simp only [Numbered]; decide) (by rw [FitsInMemory]; decide) ⟨"b", holdingTag "b" 1⟩
    (by decide)

/-- A coil of a type of four registers is read as one bit. -/
def wideCoil : ModbusTagConfig where
  id := "run"
  address := 0
  functionCode := "coil"
  datatype := "float64"

theorem wideCoil_not_counted :
    ¬∀ (tags : GoMap String ModbusTagConfig) (groups : List (Nat × List ModbusTagConfig)),
      Groups tags groups → (tags.entries.map (·.2.id)).Nodup →
        (∀ e ∈ tags.entries, Numbered e.2) → FitsInMemory tags.entries.length →
          ∀ block ∈ buildReadBlocks groups, ∀ t ∈ block.tags,
            t.offset + registerCount (.ofString t.tag.datatype) ≤ block.count := by
  intro h
  have hgroups : Groups (AList.singleton "run" wideCoil) [(1, [wideCoil])] := by
    refine ⟨⟨by decide, ?_, ?_⟩, ?_⟩
    · intro g hg
      obtain rfl := List.mem_singleton.mp hg
      exact List.Perm.refl _
    · intro g hg
      obtain rfl := List.mem_singleton.mp hg
      decide
    · intro e he
      obtain rfl := List.mem_singleton.mp he
      exact ⟨_, List.mem_singleton_self _, by decide⟩
  have hcount := h _ _ hgroups (by decide) (by simp only [Numbered]; decide)
    (by rw [FitsInMemory]; decide) ⟨1, 0, 1, [⟨wideCoil, 0⟩]⟩ (by decide) ⟨wideCoil, 0⟩ (by decide)
  exact absurd hcount (by decide)

end ModbusBlockPlan
