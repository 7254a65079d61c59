import Inherent.ForStd.FirstOccurrence
import Inherent.ForStd.RoundRobin
import Inherent.Native.TagSearch

/-!
# Pages that are diversified by document

`_diversify_by_document` serves the documents in rounds, in the order of their first hits.  Its
buckets are the queues of `RoundRobin`, and the page is the first `limit` elements of the rounds.
-/

namespace Inherent

open RoundRobin

/-- The document of a hit. -/
def SearchHit.documentId (hit : SearchHit) : String := hit.chunk.documentId

/-- The documents of the hits, in the order of their first hits. -/
def documentOrder (hits : List SearchHit) : List String :=
  (hits.map SearchHit.documentId).eraseDups

/-- The hits of a document. -/
def documentHits (hits : List SearchHit) (documentId : String) : List SearchHit :=
  hits.filter fun hit => hit.documentId = documentId

theorem documentBuckets_eq (hits : List SearchHit) :
    documentBuckets hits = (documentOrder hits).map (documentHits hits) := rfl

/-! ## The loop -/

/-- A round takes the heads of the buckets as long as there is room. -/
theorem diversifyRound_map (room : Nat) (keys : List String) (queue : String → List SearchHit) :
    (diversifyRound room (keys.map queue)).1 = (heads keys queue).take room ∧
      ((heads keys queue).length ≤ room →
        (diversifyRound room (keys.map queue)).2 = keys.map fun k => (queue k).tail) := by
  induction keys generalizing room with
  | nil => simp [diversifyRound, heads]
  | cons k keys ih =>
    rw [List.map_cons, List.map_cons, heads, List.filterMap_cons]
    cases hqueue : queue k with
    | nil =>
      rw [List.head?_nil, List.tail_nil]
      cases room with
      | zero =>
        refine ⟨by simp [diversifyRound], fun hlen => ?_⟩
        have hrest := (ih 0).2 hlen
        cases keys <;> simp_all [diversifyRound]
      | succ room =>
        obtain ⟨htaken, hrest⟩ := ih (room + 1)
        exact ⟨htaken, fun hlen => congrArg ([] :: ·) (hrest hlen)⟩
    | cons hit hits =>
      rw [List.head?_cons, List.tail_cons]
      cases room with
      | zero => exact ⟨by simp [diversifyRound], fun hlen => absurd hlen (by simp)⟩
      | succ room =>
        obtain ⟨htaken, hrest⟩ := ih room
        refine ⟨?_, fun hlen => ?_⟩
        · rw [List.take_succ_cons]
          exact congrArg (hit :: ·) htaken
        · exact congrArg (hits :: ·) (hrest (by simpa [heads] using hlen))

/-- The loop takes the first hits of the rounds. -/
theorem diversifyLoop_map (n room : Nat) (keys : List String)
    (queue : String → List SearchHit) :
    diversifyLoop n room (keys.map queue) = (rounds keys n queue).take room := by
  induction n generalizing room queue with
  | zero => simp [diversifyLoop, rounds]
  | succ n ih =>
    unfold diversifyLoop
    split
    · next hstop =>
      rcases hstop with rfl | hempty
      · rw [List.take_zero]
      · have hqueue : ∀ k ∈ keys, queue k = [] := by
          simpa using hempty
        rw [rounds_of_empty _ hqueue, List.take_nil]
    · obtain ⟨htaken, hrest⟩ := diversifyRound_map room keys queue
      show (diversifyRound room (keys.map queue)).1 ++
          diversifyLoop n (room - (diversifyRound room (keys.map queue)).1.length)
            (diversifyRound room (keys.map queue)).2 = _
      rw [rounds, List.take_append, htaken]
      congr 1
      rcases Nat.lt_or_ge room (heads keys queue).length with hlt | hle
      · -- the room is used up, and the next round stops
        have hzero : room - ((heads keys queue).take room).length = 0 := by
          rw [List.length_take]
          omega
        rw [hzero, Nat.sub_eq_zero_of_le (Nat.le_of_lt hlt), List.take_zero]
        cases n <;> simp [diversifyLoop]
      · rw [hrest hle, ih, List.take_of_length_le hle]

/-! ## The page -/

theorem keyed_documentHits (hits : List SearchHit) (keys : List String) :
    Keyed SearchHit.documentId keys (documentHits hits) := fun k _ hit hhit => by
  simpa using (List.mem_filter.mp hhit).2

theorem mem_documentOrder {hits : List SearchHit} {documentId : String} :
    documentId ∈ documentOrder hits ↔ documentHits hits documentId ≠ [] := by
  rw [documentOrder, List.mem_eraseDups, List.mem_map, ne_eq, documentHits,
    List.filter_eq_nil_iff]
  simp

/-- All rounds together have the hits of each document in their order. -/
theorem filter_rounds_documentHits (hits : List SearchHit) (documentId : String) :
    ((rounds (documentOrder hits) hits.length (documentHits hits)).filter fun hit =>
      hit.documentId = documentId) = documentHits hits documentId := by
  have hkeyed := keyed_documentHits hits (documentOrder hits)
  by_cases hmem : documentId ∈ documentOrder hits
  · exact hkeyed.filter_rounds (FirstOccurrence.nodup_eraseDups _) hmem
      (List.length_filter_le _ _)
  · rw [not_not.mp (mt mem_documentOrder.mpr hmem), List.filter_eq_nil_iff]
    intro hit hhit
    have hne : hit.documentId ≠ documentId := fun heq => hmem (heq ▸ hkeyed.mem_rounds hhit)
    simpa using hne

theorem rounds_perm (hits : List SearchHit) :
    (rounds (documentOrder hits) hits.length (documentHits hits)).Perm hits :=
  perm_of_filter SearchHit.documentId fun documentId => filter_rounds_documentHits hits documentId

/-- A page that is cut is the first hits of the rounds. -/
theorem diversifyByDocument_eq {hits : List SearchHit} {limit : Nat} (hlt : limit < hits.length) :
    diversifyByDocument hits limit =
      (rounds (documentOrder hits) hits.length (documentHits hits)).take limit := by
  unfold diversifyByDocument
  split
  · next hstop =>
    rcases hstop with rfl | rfl
    · rw [List.take_zero]
    · cases hlt
  · rw [if_neg (by omega), documentBuckets_eq, diversifyLoop_map]

/-- The first hit is the first one of the rounds. -/
theorem head?_rounds {hits : List SearchHit} :
    (rounds (documentOrder hits) hits.length (documentHits hits)).head? = hits.head? := by
  cases hits with
  | nil => rfl
  | cons hit hits =>
    have hqueue : (documentHits (hit :: hits) hit.documentId).head? = some hit := by
      simp [documentHits]
    rw [List.length_cons, rounds, heads, documentOrder, List.map_cons, List.eraseDups_cons,
      List.filterMap_cons, hqueue]
    rfl

/-- How many hits of a document there are. -/
def contribution (documentId : String) (hits : List SearchHit) : Nat :=
  (documentHits hits documentId).length

/-- A fair selection of at most `limit` hits. -/
structure FairSelection (hits : List SearchHit) (limit : Nat) (page : List SearchHit) : Prop where
  /-- No hit is taken twice. -/
  subperm : page.Subperm hits
  length : page.length = min limit hits.length
  /-- The first hits of each document, in their order. -/
  inOrder : ∀ documentId, documentHits page documentId <+: documentHits hits documentId
  first : 1 ≤ limit → page.head? = hits.head?
  whole : hits.length ≤ limit → page = hits
  /-- A document has `k + 1` hits only if every earlier one with more than `k` hits has as many,
      and every other one has `k` or all it has. -/
  fair : limit < hits.length → ∀ d e k, k + 1 ≤ contribution d page →
    (k < contribution e hits →
      (hits.map SearchHit.documentId).idxOf e < (hits.map SearchHit.documentId).idxOf d →
      k + 1 ≤ contribution e page) ∧
    min k (contribution e hits) ≤ contribution e page

theorem fairSelection_self {hits : List SearchHit} {limit : Nat} (hle : hits.length ≤ limit) :
    FairSelection hits limit hits where
  subperm := List.Subperm.refl hits
  length := (Nat.min_eq_right hle).symm
  inOrder _ := List.prefix_rfl
  first _ := rfl
  whole _ := rfl
  fair hlt := absurd hlt (Nat.not_lt_of_le hle)

/-- `_diversify_by_document` selects fairly. -/
theorem diversifyByDocument_fair (hits : List SearchHit) (limit : Nat) :
    FairSelection hits limit (diversifyByDocument hits limit) := by
  rcases Nat.lt_or_ge limit hits.length with hlt | hle
  · have hperm := rounds_perm hits
    rw [diversifyByDocument_eq hlt]
    refine ⟨?_, ?_, fun documentId => ?_, fun hlimit => ?_, fun hle => ?_, fun _ d e k hd => ?_⟩
    · exact (List.take_sublist _ _).subperm.trans hperm.subperm
    · rw [List.length_take, hperm.length_eq]
    · rw [← filter_rounds_documentHits hits documentId]
      exact (List.take_prefix _ _).filter _
    · rw [List.head?_take, if_neg (by omega), head?_rounds]
    · omega
    · have hkeyed := keyed_documentHits hits (documentOrder hits)
      have hnodup := FirstOccurrence.nodup_eraseDups (hits.map SearchHit.documentId)
      have hpre := List.take_prefix limit
        (rounds (documentOrder hits) hits.length (documentHits hits))
      -- a document with a hit on the page is one of the documents
      have hmem : d ∈ documentOrder hits := by
        rw [mem_documentOrder, ← List.length_pos_iff]
        have hle := (hpre.filter fun hit => hit.documentId = d).length_le
        rw [filter_rounds_documentHits] at hle
        exact Nat.lt_of_lt_of_le (Nat.succ_pos k) (Nat.le_trans hd hle)
      by_cases he : e ∈ documentOrder hits
      · have hfair := hkeyed.fair hnodup hpre hd hmem he
        refine ⟨fun hlen hbefore => hfair.1 ?_ hlen, hfair.2⟩
        exact FirstOccurrence.idxOf_eraseDups_lt_iff.mpr hbefore
      · rw [mem_documentOrder, not_not] at he
        simp [contribution, he]
  · have hwhole : diversifyByDocument hits limit = hits := by
      unfold diversifyByDocument
      split
      · next hstop =>
        rcases hstop with rfl | rfl
        · exact (List.length_eq_zero_iff.mp (Nat.le_zero.mp hle)).symm
        · rfl
      · rfl
    rw [hwhole]
    exact fairSelection_self hle

end Inherent
