import Inherent.ForStd.GreedyPacking
import Inherent.Spec.TextUnits

/-!
# Packing the units of a text

`_chunk_by_sentences` and `_chunk_by_paragraphs` pack units into groups and emit each group
as a chunk.  The groups are those of a greedy packer, so they are windows of the units, and
a chunk has the units of its window: it covers the text in order, has a unit that no chunk
before it has, and shares with the chunk before it the last units of that.
-/

namespace Inherent

open GreedyPacking (Packer IsCover window)

/-- The chunk has the unit in its span. -/
def ChunkData.Holds (c : ChunkData) (u : TextSpan) : Prop :=
  c.startChar ≤ u.start ∧ u.stop ≤ c.endChar

instance ChunkData.decidableHolds (c : ChunkData) (u : TextSpan) : Decidable (c.Holds u) :=
  inferInstanceAs (Decidable (_ ∧ _))

/-- The text consists of the units in order, with whitespace between two of them. -/
def Spaced : List (List Char) → List Char → Prop
  | [], text => text = []
  | [u], text => text = u
  | u :: v :: us, text =>
    ∃ gap rest, text = u ++ gap ++ rest ∧ PyStr.Blank gap ∧ Spaced (v :: us) rest

/-- The chunks cover the units of a text in order: each has the text of its span, with
    `sep` for the whitespace between two units, each has a unit that no chunk before it has,
    and two chunks in a row share the last units of the first of them. -/
structure CoversInOrder (text sep : List Char) (units : List TextSpan)
    (chunks : List ChunkData) : Prop where
  index : ∀ (k : Nat) (c : ChunkData), chunks[k]? = some c → c.chunkIndex = k
  content : ∀ c ∈ chunks,
    Spaced ((units.filter fun u => c.Holds u).map TextSpan.text)
        (PyStr.slice text c.startChar c.endChar) ∧
      c.content =
        PyStr.strip (PyStr.join sep ((units.filter fun u => c.Holds u).map TextSpan.text))
  covers : ∀ u ∈ units, ∃ c ∈ chunks, c.Holds u
  progress : ∀ (k : Nat) (c : ChunkData), chunks[k]? = some c →
    ∃ u ∈ units, c.Holds u ∧ ∀ (j : Nat) (d : ChunkData), j < k → chunks[j]? = some d → ¬ d.Holds u
  shared : ∀ (k : Nat) (c d : ChunkData), chunks[k]? = some c → chunks[k + 1]? = some d →
    (units.filter fun u => c.Holds u ∧ d.Holds u) <:+ units.filter fun u => c.Holds u

/-! ## The groups of the loop -/

/-- The summed length of the units. -/
def unitsSize (us : List TextSpan) : Nat := (us.map fun u => u.text.length).sum

@[simp] theorem unitsSize_nil : unitsSize [] = 0 := rfl

@[simp] theorem unitsSize_cons (u : TextSpan) (us : List TextSpan) :
    unitsSize (u :: us) = u.text.length + unitsSize us := rfl

@[simp] theorem unitsSize_append (us vs : List TextSpan) :
    unitsSize (us ++ vs) = unitsSize us + unitsSize vs := by
  simp [unitsSize]

/-- What is kept of a group is the end of it, with its size. -/
structure Keeps (keep : List TextSpan → List TextSpan × Nat) : Prop where
  suffix : ∀ group, (keep group).1 <:+ group
  size : ∀ group, (keep group).2 = unitsSize (keep group).1

/-- Nothing is kept. -/
theorem keeps_nothing : Keeps fun _ => ([], 0) := ⟨fun _ => List.nil_suffix, fun _ => rfl⟩

/-- The loop over the trailing sentences takes a part of them, in order. -/
theorem overlapTail_spec (overlap : Nat) (us : List TextSpan) (kept : List TextSpan × Nat)
    (hkept : kept.2 = unitsSize kept.1) :
    (overlapTail overlap us kept).1 <:+ us.reverse ++ kept.1 ∧
      (overlapTail overlap us kept).2 = unitsSize (overlapTail overlap us kept).1 := by
  induction us generalizing kept with
  | nil => exact ⟨List.suffix_refl _, hkept⟩
  | cons u us ih =>
    unfold overlapTail
    split
    · have h := ih (u :: kept.1, kept.2 + u.text.length) (by simp [hkept, Nat.add_comm])
      rw [List.reverse_cons, List.append_assoc]
      exact h
    · exact ⟨List.suffix_append _ _, hkept⟩

theorem keeps_overlapTail (overlap : Nat) :
    Keeps fun group => overlapTail overlap group.reverse ([], 0) where
  suffix group := by
    have h := (overlapTail_spec overlap group.reverse ([], 0) rfl).1
    rwa [List.reverse_reverse, List.append_nil] at h
  size group := (overlapTail_spec overlap group.reverse ([], 0) rfl).2

section Groups

variable {sep : List Char} {documentId : String} {maxSize : Nat}
  {keep : List TextSpan → List TextSpan × Nat}

/-- The packer that the loops run: a group is full when the next unit would make it longer
    than `max_size`. -/
def unitPacker (maxSize : Nat) (keep : List TextSpan → List TextSpan × Nat) (hkeep : Keeps keep) :
    Packer TextSpan where
  full group u := decide (maxSize < unitsSize group + u.text.length)
  keep group := (keep group).1
  keep_suffix := hkeep.suffix

/-- The state of the loop is that of the packer, with the closed groups emitted. -/
structure PackState.Packs (sep : List Char) (documentId : String) (s : PackState)
    (st : GreedyPacking.State TextSpan) : Prop where
  current : s.current = st.current
  size : s.currentSize = unitsSize st.current
  sink : s.sink = st.closed.foldl (ChunkSink.emit sep documentId) {}

/-- One round of the loop is a step of the packer. -/
theorem PackState.Packs.pack {s : PackState} {st : GreedyPacking.State TextSpan}
    (h : s.Packs sep documentId st) (hkeep : Keeps keep) (u : TextSpan) :
    (s.pack sep documentId maxSize keep u).Packs sep documentId
      ((unitPacker maxSize keep hkeep).step st u) := by
  have hfull : (maxSize < s.currentSize + u.text.length ∧ s.current ≠ []) ↔
      (st.current ≠ [] ∧ (unitPacker maxSize keep hkeep).full st.current u = true) := by
    rw [h.current, h.size, and_comm]
    simp only [unitPacker, decide_eq_true_eq]
  unfold PackState.pack Packer.step
  by_cases hif : maxSize < s.currentSize + u.text.length ∧ s.current ≠ []
  · rw [if_pos hif, if_pos (hfull.mp hif)]
    refine ⟨?_, ?_, ?_⟩
    · simp only [h.current, unitPacker]
    · simp only [h.current, hkeep.size, unitPacker, unitsSize_append, unitsSize_cons,
        unitsSize_nil, Nat.add_zero]
    · simp only [h.sink, h.current, List.foldl_append, List.foldl_cons, List.foldl_nil]
  · rw [if_neg hif, if_neg fun hst => hif (hfull.mpr hst)]
    refine ⟨?_, ?_, h.sink⟩
    · simp only [h.current]
    · simp only [h.size, unitsSize_append, unitsSize_cons, unitsSize_nil, Nat.add_zero]

/-- The whole loop is a run of the packer. -/
theorem packs_foldl (sep : List Char) (documentId : String) (maxSize : Nat) (hkeep : Keeps keep)
    (units : List TextSpan) :
    (units.foldl (PackState.pack sep documentId maxSize keep) {}).Packs sep documentId
      ((unitPacker maxSize keep hkeep).run units) := by
  induction units using List.reverseRecOn with
  | nil => exact ⟨rfl, rfl, rfl⟩
  | append_singleton units u ih =>
    rw [List.foldl_concat, Packer.run_concat]
    exact ih.pack hkeep u

/-- The loop emits the groups of the packer. -/
theorem finish_foldl (hkeep : Keeps keep) (units : List TextSpan) :
    (units.foldl (PackState.pack sep documentId maxSize keep) {}).finish sep documentId =
      ((unitPacker maxSize keep hkeep).groups units).foldl (ChunkSink.emit sep documentId) {} := by
  have h := packs_foldl sep documentId maxSize hkeep units
  rw [PackState.finish, Packer.groups, GreedyPacking.State.groups, h.current, h.sink]
  by_cases hnil : ((unitPacker maxSize keep hkeep).run units).current = []
  · rw [if_pos hnil, if_pos hnil]
  · rw [if_neg hnil, if_neg hnil, List.foldl_concat]

end Groups

/-! ## The chunks of the groups -/

/-- The content of the chunk of a group. -/
def groupContent (sep : List Char) (group : List TextSpan) : List Char :=
  PyStr.strip (PyStr.join sep (group.map TextSpan.text))

/-- The chunk of a group. -/
def groupChunk (sep : List Char) (documentId : String) (k : Nat) (group : List TextSpan) :
    ChunkData where
  documentId := documentId
  content := groupContent sep group
  chunkIndex := k
  startChar := (group.head?.map TextSpan.start).getD 0
  endChar := (group.getLast?.map TextSpan.stop).getD 0

/-- Groups that are not blank are all emitted, and numbered from 0 on. -/
theorem foldl_emit {sep : List Char} {documentId : String} {groups : List (List TextSpan)}
    (h : ∀ g ∈ groups, groupContent sep g ≠ []) :
    groups.foldl (ChunkSink.emit sep documentId) {} =
      { chunks := groups.mapIdx (groupChunk sep documentId), chunkIndex := groups.length } := by
  induction groups using List.reverseRecOn with
  | nil => rfl
  | append_singleton groups g ih =>
    rw [List.foldl_concat, ih fun g' hg' => h g' (List.mem_append_left _ hg')]
    have hg : ¬ PyStr.strip (PyStr.join sep (g.map TextSpan.text)) = [] := h g (by simp)
    simp only [ChunkSink.emit, if_neg hg, ChunkSink.add, List.mapIdx_concat, List.length_append,
      List.length_singleton]
    rfl

/-! ## Units in order -/

theorem InOrder.start_le {text : List Char} {cursor : Nat} {us : List TextSpan}
    (h : InOrder text cursor us) : ∀ u ∈ us, cursor ≤ u.start ∧ u.start ≤ u.stop ∧
      u.stop ≤ text.length := by
  induction us generalizing cursor with
  | nil => simp
  | cons u us ih =>
    obtain ⟨hstart, hstop, hlen, -, -, hrest⟩ := h
    intro v hv
    rcases List.mem_cons.mp hv with rfl | hv
    · omega
    · have := ih hrest v hv
      omega

/-- Of two units the first one ends before the other starts. -/
theorem InOrder.pairwise {text : List Char} {cursor : Nat} {us : List TextSpan}
    (h : InOrder text cursor us) : us.Pairwise fun u v => u.stop ≤ v.start := by
  induction us generalizing cursor with
  | nil => exact .nil
  | cons u us ih =>
    obtain ⟨-, -, -, -, -, hrest⟩ := h
    exact List.pairwise_cons.mpr ⟨fun v hv => (hrest.start_le v hv).1, ih hrest⟩

theorem InOrder.take {text : List Char} {cursor : Nat} {us : List TextSpan}
    (h : InOrder text cursor us) (n : Nat) : InOrder text cursor (us.take n) := by
  induction us generalizing cursor n with
  | nil => simp [InOrder]
  | cons u us ih =>
    cases n with
    | zero => trivial
    | succ n =>
      obtain ⟨hstart, hstop, hlen, htext, hblank, hrest⟩ := h
      exact ⟨hstart, hstop, hlen, htext, hblank, ih hrest n⟩

/-- The units from one on stand in the text in order from the start of this one. -/
theorem InOrder.drop {text : List Char} {cursor : Nat} {us vs : List TextSpan} {v : TextSpan}
    (h : InOrder text cursor us) {n : Nat} (hdrop : us.drop n = v :: vs) :
    InOrder text v.start (v :: vs) := by
  induction us generalizing cursor n with
  | nil => simp at hdrop
  | cons u us ih =>
    obtain ⟨-, hstop, hlen, htext, -, hrest⟩ := h
    cases n with
    | zero =>
      simp only [List.drop_zero, List.cons.injEq] at hdrop
      rw [← hdrop.1, ← hdrop.2]
      exact ⟨Nat.le_refl _, hstop, hlen, htext, by simp [BlankBetween, PyStr.slice, PyStr.Blank],
        hrest⟩
    | succ n => exact ih hrest hdrop

/-- The text from the first of some units to the end of the last one. -/
theorem InOrder.spaced {text : List Char} {v last : TextSpan} {vs : List TextSpan}
    (h : InOrder text v.start (v :: vs)) (hlast : (v :: vs).getLast? = some last) :
    Spaced ((v :: vs).map TextSpan.text) (PyStr.slice text v.start last.stop) := by
  induction vs generalizing v with
  | nil =>
    obtain ⟨-, -, -, htext, -⟩ := h
    rw [List.getLast?_singleton, Option.some.injEq] at hlast
    rw [← hlast]
    exact htext.symm
  | cons w ws ih =>
    obtain ⟨-, hstop, hlen, htext, -, hw⟩ := h
    have hblank : BlankBetween text v.stop w.start := hw.2.2.2.2.1
    have hw' : InOrder text w.start (w :: ws) :=
      ⟨Nat.le_refl _, hw.2.1, hw.2.2.1, hw.2.2.2.1, by simp [BlankBetween, PyStr.slice, PyStr.Blank],
        hw.2.2.2.2.2⟩
    have hend := hw'.start_le last (List.mem_of_getLast? (by simpa using hlast))
    have hbounds := hw'.start_le w List.mem_cons_self
    refine ⟨PyStr.slice text v.stop w.start, PyStr.slice text w.start last.stop, ?_, hblank,
      ih hw' (by simpa using hlast)⟩
    have hvw := hw.1
    rw [htext, slice_append_slice (by omega) (by omega) (by omega),
      slice_append_slice (by omega) (by omega) (by omega)]

/-! ## The chunks cover the units -/

section Covers

variable {text sep : List Char} {documentId : String} {units : List TextSpan}
  {ws : List (Nat × Nat)}

/-- The span of the chunk of a window: from its first unit to its last one. -/
theorem groupChunk_span (sep : List Char) (documentId : String) {w : Nat × Nat} (k : Nat) (hlt : w.1 < w.2) (hle : w.2 ≤ units.length) :
    ∃ first last, units[w.1]? = some first ∧ units[w.2 - 1]? = some last ∧
      (groupChunk sep documentId k (window units w)).startChar = first.start ∧
      (groupChunk sep documentId k (window units w)).endChar = last.stop := by
  have hw1 : w.1 < units.length := by omega
  have hw2 : w.2 - 1 < units.length := by omega
  have hfirst : units[w.1]? = some units[w.1] := List.getElem?_eq_getElem hw1
  have hlast : units[w.2 - 1]? = some units[w.2 - 1] := List.getElem?_eq_getElem hw2
  refine ⟨_, _, hfirst, hlast, ?_, ?_⟩
  · simp only [groupChunk, GreedyPacking.head?_window units hlt, hfirst, Option.map_some, Option.getD_some]
  · simp only [groupChunk, GreedyPacking.getLast?_window hlt hle, hlast, Option.map_some,
      Option.getD_some]

/-- The chunk of a window holds the units of the window. -/
theorem holds_groupChunk_iff (horder : InOrder text 0 units) (hne : ∀ u ∈ units, u.start < u.stop)
    {w : Nat × Nat} {k i : Nat} {u : TextSpan} (hlt : w.1 < w.2) (hle : w.2 ≤ units.length)
    (hu : units[i]? = some u) :
    (groupChunk sep documentId k (window units w)).Holds u ↔ w.1 ≤ i ∧ i < w.2 := by
  obtain ⟨first, last, hfirst, hlast, hstart, hend⟩ :=
    groupChunk_span sep documentId k hlt hle
  have hsorted := List.pairwise_iff_getElem.mp horder.pairwise
  have hbefore : ∀ (a b : Nat) (v v' : TextSpan), a < b → units[a]? = some v → units[b]? = some v' →
      v.stop ≤ v'.start := by
    intro a b v v' hab hv hv'
    obtain ⟨ha, rfl⟩ := List.getElem?_eq_some_iff.mp hv
    obtain ⟨hb, rfl⟩ := List.getElem?_eq_some_iff.mp hv'
    exact hsorted a b ha hb hab
  have hspan : ∀ (a : Nat) (v : TextSpan), units[a]? = some v → v.start < v.stop := fun a v hv =>
    hne v (List.mem_of_getElem? hv)
  have hspanu := hspan i u hu
  rw [ChunkData.Holds, hstart, hend]
  constructor
  · intro hholds
    constructor
    · -- a unit before the window ends before its first unit starts
      by_contra hi
      have := hbefore i w.1 u first (by omega) hu hfirst
      omega
    · -- a unit behind the window starts behind the end of its last unit
      by_contra hi
      have := hbefore (w.2 - 1) i last u (by omega) hlast hu
      omega
  · intro hi
    constructor
    · by_cases heq : w.1 = i
      · rw [heq, hu, Option.some.injEq] at hfirst
        rw [hfirst]
      · have := hbefore w.1 i first u (by omega) hfirst hu
        have := hspan w.1 first hfirst
        omega
    · by_cases heq : i = w.2 - 1
      · rw [← heq, hu, Option.some.injEq] at hlast
        rw [hlast]
      · have := hbefore i (w.2 - 1) u last (by omega) hu hlast
        have := hspan (w.2 - 1) last hlast
        omega

/-- What the chunk of a window holds is the window. -/
theorem filter_holds_groupChunk (horder : InOrder text 0 units)
    (hne : ∀ u ∈ units, u.start < u.stop) {w : Nat × Nat} {k : Nat} (hlt : w.1 < w.2)
    (hle : w.2 ≤ units.length) :
    (units.filter fun u => (groupChunk sep documentId k (window units w)).Holds u) =
      window units w := by
  apply GreedyPacking.filter_eq_window
  intro i u hu
  rw [decide_eq_true_iff]
  exact holds_groupChunk_iff horder hne hlt hle hu

/-- The text of the span of the chunk of a window. -/
theorem spaced_groupChunk (horder : InOrder text 0 units) {w : Nat × Nat} {k : Nat}
    (hlt : w.1 < w.2) (hle : w.2 ≤ units.length) :
    Spaced ((window units w).map TextSpan.text)
      (PyStr.slice text (groupChunk sep documentId k (window units w)).startChar
        (groupChunk sep documentId k (window units w)).endChar) := by
  obtain ⟨first, last, hfirst, hlast, hstart, hend⟩ :=
    groupChunk_span sep documentId k hlt hle
  rw [hstart, hend]
  have hhead := GreedyPacking.head?_window units hlt
  rw [hfirst] at hhead
  obtain ⟨vs, hvs⟩ := List.head?_eq_some_iff.mp hhead
  have hlast' := GreedyPacking.getLast?_window hlt hle
  rw [hlast, hvs] at hlast'
  rw [hvs]
  exact ((horder.take w.2).drop hvs).spaced hlast'

/-- The chunks of windows that cover the units cover the text in order. -/
theorem coversInOrder_mapIdx (horder : InOrder text 0 units)
    (hne : ∀ u ∈ units, u.start < u.stop) (hcover : IsCover units.length ws) :
    CoversInOrder text sep units ((ws.map (window units)).mapIdx (groupChunk sep documentId)) := by
  -- the chunk with number `k` is that of the `k`-th window
  have hget : ∀ (k : Nat) (c : ChunkData),
      ((ws.map (window units)).mapIdx (groupChunk sep documentId))[k]? = some c →
        ∃ w, ws[k]? = some w ∧ w.1 < w.2 ∧ w.2 ≤ units.length ∧
          c = groupChunk sep documentId k (window units w) := by
    intro k c hc
    rw [List.getElem?_mapIdx, List.getElem?_map, Option.map_map] at hc
    obtain ⟨w, hw, hcw⟩ := Option.map_eq_some_iff.mp hc
    have hb := hcover.bounds w (List.mem_of_getElem? hw)
    exact ⟨w, hw, hb.1, hb.2, hcw.symm⟩
  refine ⟨?_, ?_, ?_, ?_, ?_⟩
  · intro k c hc
    obtain ⟨w, -, -, -, rfl⟩ := hget k c hc
    rfl
  · intro c hc
    obtain ⟨k, hk⟩ := List.getElem?_of_mem hc
    obtain ⟨w, -, hlt, hle, rfl⟩ := hget k c hk
    rw [filter_holds_groupChunk horder hne hlt hle]
    exact ⟨spaced_groupChunk horder hlt hle, rfl⟩
  · intro u hu
    obtain ⟨i, hi⟩ := List.getElem?_of_mem hu
    obtain ⟨w, hw, hwi⟩ := hcover.covers i (List.getElem?_eq_some_iff.mp hi).1
    obtain ⟨k, hk⟩ := List.getElem?_of_mem hw
    have hb := hcover.bounds w hw
    refine ⟨groupChunk sep documentId k (window units w), ?_,
      (holds_groupChunk_iff horder hne hb.1 hb.2 hi).mpr hwi⟩
    apply List.mem_of_getElem? (i := k)
    rw [List.getElem?_mapIdx, List.getElem?_map, hk]
    rfl
  · intro k c hc
    obtain ⟨w, hw, hlt, hle, rfl⟩ := hget k c hc
    -- the last unit of a window is behind the windows before it
    have hw2 : w.2 - 1 < units.length := by omega
    have hlast : units[w.2 - 1]? = some units[w.2 - 1] := List.getElem?_eq_getElem hw2
    refine ⟨_, List.mem_of_getElem? hlast,
      (holds_groupChunk_iff horder hne hlt hle hlast).mpr (by omega), ?_⟩
    intro j d hj hd hholds
    obtain ⟨v, hv, hvlt, hvle, rfl⟩ := hget j d hd
    have hin := (holds_groupChunk_iff horder hne hvlt hvle hlast).mp hholds
    obtain ⟨hjlen, rfl⟩ := List.getElem?_eq_some_iff.mp hv
    obtain ⟨hklen, rfl⟩ := List.getElem?_eq_some_iff.mp hw
    have := List.pairwise_iff_getElem.mp hcover.ordered j k hjlen hklen hj
    omega
  · intro k c d hc hd
    obtain ⟨v, hv, hvlt, hvle, rfl⟩ := hget k c hc
    obtain ⟨w, hw, hwlt, hwle, rfl⟩ := hget (k + 1) d hd
    obtain ⟨hklen, rfl⟩ := List.getElem?_eq_some_iff.mp hv
    obtain ⟨hklen', rfl⟩ := List.getElem?_eq_some_iff.mp hw
    have hord := List.pairwise_iff_getElem.mp hcover.ordered k (k + 1) hklen hklen' (by omega)
    have hlink := List.isChain_iff_getElem.mp hcover.linked k hklen'
    have hshared : (units.filter fun u =>
        (groupChunk sep documentId k (window units ws[k])).Holds u ∧
          (groupChunk sep documentId (k + 1) (window units ws[k + 1])).Holds u) =
        window units (ws[k + 1].1, ws[k].2) := by
      apply GreedyPacking.filter_eq_window
      intro i u hu
      rw [decide_eq_true_iff, holds_groupChunk_iff horder hne hvlt hvle hu,
        holds_groupChunk_iff horder hne hwlt hwle hu]
      simp only
      omega
    rw [hshared, filter_holds_groupChunk horder hne hvlt hvle]
    have hdrop : window units (ws[k + 1].1, ws[k].2) =
        (window units ws[k]).drop (ws[k + 1].1 - ws[k].1) := by
      rw [window, window, List.drop_drop]
      congr 1
      simp only
      omega
    rw [hdrop]
    exact List.drop_suffix _ _

end Covers

end Inherent
