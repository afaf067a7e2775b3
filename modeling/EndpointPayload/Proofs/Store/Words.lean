import EndpointPayload.Proofs.Store.RelatedIds
import EndpointPayload.Proofs.Store.Sampler

/-!
# Sizes in words of 64 bits

A sampler computes two sizes from its limit: the number of places that a window may start at, and
the number of documents that it asks for to fill a list of ids up.  Where one of them is no word, it
stops.  The first always is one.  The second is twice the limit: below half of the words it is one
as well, and as many ids are found as there may be; from there on the sampler stops unless the
referenced ids reach the limit.
-/

namespace EndpointPayload
namespace Sampler

open Session Document

variable {m : MemoryStore} {collection field related : String} {limit : Nat}

/-- What becomes of the sizes that a sampler computes from its limit. -/
structure CountsInWords (m : MemoryStore) (keys : Nat → Nat) (draw : List Query → Nat)
    (collection field related : String) (limit : Nat) : Prop where
  /-- The sizes of a sample are words, whatever is sampled and whatever the store answers. -/
  documents_finishes : ∀ (store : Option Store) (name : String),
    Yields store (documents name limit) fun _ => True
  /-- Below half of the words the sizes of a list of ids are, whatever the store answers. -/
  relatedIds_finishes : ∀ store : Option Store, 2 * limit < 2 ^ 64 →
    Yields store (relatedIds collection field related limit) fun _ => True
  /-- The sampler stops exactly if twice the limit is no word and the referenced ids do not reach
  the limit, and else it finds as many ids as there may be. -/
  yieldsUnless : YieldsUnless (some (m.store keys draw))
    (relatedIds collection field related limit)
    (2 ^ 64 ≤ 2 * limit ∧ (referencedIds m collection field related limit).length < limit)
    fun ids => ids.length = min limit (m.documents related).length

/-- For every store in memory whose related documents have different ids, none of them empty, and
for every limit: the sizes of a sample are words, those of a list of ids are for limits below half
of the words, and as many ids are found as there may be unless a size is no word. -/
theorem countsInWords
    (hnodup : ((m.documents related).map idText).Nodup)
    (hnames : ∀ d ∈ m.documents related, d.idText ≠ "")
    (keys : Nat → Nat)
    (draw : List Query → Nat)
    (collection field : String)
    (limit : Nat) :
    CountsInWords m keys draw collection field related limit where
  documents_finishes store name := yields_documents limit
  relatedIds_finishes store hlimit := yields_relatedIds hlimit field related
  yieldsUnless := by
    refine (yieldsUnless_relatedIds m keys draw collection field related limit).mono ?_
    rintro _ rfl
    exact length_filled hnodup hnames _ limit

/-- With half of all words as the limit, the one referenced author is too few. -/
theorem countsInWords_library :
    ((library.documents "authors").map idText).Nodup ∧
      (∀ d ∈ library.documents "authors", d.idText ≠ "") ∧
      CountsInWords library id List.length "posts" "by" "authors" (2 ^ 63) := by
  have hnodup : ((library.documents "authors").map idText).Nodup := by decide +kernel
  have hnames : ∀ d ∈ library.documents "authors", d.idText ≠ "" := by decide +kernel
  exact ⟨hnodup, hnames, countsInWords hnodup hnames id List.length "posts" "by" (2 ^ 63)⟩

theorem paddingOverflows_library : PaddingOverflows library "posts" "by" "authors" (2 ^ 63) :=
  ⟨by decide, by decide +kernel⟩

/-- None of the three authors is found. -/
theorem not_forall_length_relatedIds :
    ¬ ∀ (m : MemoryStore) (keys : Nat → Nat) (draw : List Query → Nat)
        (collection field related : String) (limit : Nat),
      limit < 2 ^ 64 →
      ((m.documents related).map idText).Nodup →
      (∀ d ∈ m.documents related, d.idText ≠ "") →
      ∃ ids, ((relatedIds collection field related limit).run (some (m.store keys draw))).1 =
          some ids ∧
        ids.length = min limit (m.documents related).length := by
  intro hall
  obtain ⟨ids, hids, -⟩ := hall library id List.length "posts" "by" "authors" (2 ^ 63) (by decide)
    (by decide +kernel) (by decide +kernel)
  have hstops := ((yieldsUnless_relatedIds library id List.length "posts" "by" "authors"
    (2 ^ 63)).stops paddingOverflows_library).run
  rw [hstops] at hids
  cases hids

end Sampler
end EndpointPayload
