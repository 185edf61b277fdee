import Mathlib.Data.List.Induction
import Mathlib.Data.List.Nodup
import PeerMessaging.Discovery.PeerTable
/-!
A peer table after any sequence of claims. A lookup is the table's entry under the normalised
address, and a claim adds an entry only when that lookup finds nothing, so the table holds the
first claim of each normalised address, in the order of first claims. Main statement: the answers,
lookups and listing of a table built by claims from empty, read off the sequence of claims alone.

Stored addresses are normalised once and looked up after normalising again. Normalising strips one
prefix, so a listed address that still begins with the prefix (claimed with it twice) is looked up
as its shorter form; every other listed address finds its own entry.
-/

namespace PeerMessaging.PeerTable

variable {α : Type}

def claimAll (t : PeerTable α) (cs : List (Text × α)) : PeerTable α :=
  cs.foldl (fun t c => (t.claim c.1 c.2).2) t

@[simp] theorem claimAll_nil (t : PeerTable α) : t.claimAll [] = t := rfl

@[simp] theorem claimAll_cons (t : PeerTable α) (c : Text × α) (cs : List (Text × α)) :
    t.claimAll (c :: cs) = (t.claim c.1 c.2).2.claimAll cs := rfl

theorem claimAll_concat (t : PeerTable α) (cs : List (Text × α)) (c : Text × α) :
    t.claimAll (cs ++ [c]) = ((t.claimAll cs).claim c.1 c.2).2 := by
  simp [claimAll]

theorem normalizeAddress_of_unmapped {x : Text} (h : x.startsWith mappedPrefix = false) :
    normalizeAddress x = x := by
  simp [normalizeAddress, h]

theorem find?_key_eq_lookup (es : List (Text × α)) (k : Text) :
    (es.find? (·.1 == k)).map (·.2) = es.lookup k := by
  induction es with
  | nil => rfl
  | cons e es ih =>
    obtain ⟨key, p⟩ := e
    by_cases same : key = k
    · simp [same]
    · have differ : (k == key) = false := beq_false_of_ne (Ne.symm same)
      simp [List.lookup_cons, same, differ, ih]

theorem get?_eq_lookup (t : PeerTable α) (a : Text) :
    t.get? a = t.entries.lookup (normalizeAddress a) :=
  find?_key_eq_lookup t.entries (normalizeAddress a)

theorem has_iff_mem (t : PeerTable α) (a : Text) :
    t.has a = true ↔ normalizeAddress a ∈ t.addresses := by
  simp only [has, get?_eq_lookup, List.lookup_isSome_iff, addresses, List.mem_map, beq_iff_eq]
  exact exists_congr fun _ => and_congr_right fun _ => eq_comm

theorem get?_empty (a : Text) : (empty : PeerTable α).get? a = none := rfl

/-- A claim can only answer lookups that found nothing before it. -/
theorem get?_claim (t : PeerTable α) (b a : Text) (p : α) :
    (t.claim b p).2.get? a =
      (t.get? a).or (if normalizeAddress b = normalizeAddress a then some p else none) := by
  unfold claim
  split
  case isTrue taken =>
    by_cases same : normalizeAddress b = normalizeAddress a
    · -- the address was taken under the same normalised form, so the lookup already succeeds
      have found : (t.get? a).isSome := by simpa [has, get?_eq_lookup, same] using taken
      obtain ⟨q, hq⟩ := Option.isSome_iff_exists.mp found
      simp [hq]
    · simp [same]
  case isFalse =>
    by_cases same : normalizeAddress b = normalizeAddress a
    · simp [get?_eq_lookup, List.lookup_append, same]
    · have differ : (normalizeAddress a == normalizeAddress b) = false :=
        beq_false_of_ne (Ne.symm same)
      simp [get?_eq_lookup, List.lookup_append, List.lookup_cons, same, differ]

theorem get?_claimAll (t : PeerTable α) (cs : List (Text × α)) (a : Text) :
    (t.claimAll cs).get? a =
      (t.get? a).or ((cs.find? fun c => normalizeAddress c.1 == normalizeAddress a).map (·.2)) := by
  -- the table changes claim by claim; each keeps what earlier claims found
  induction cs generalizing t with
  | nil => simp
  | cons c cs ih =>
    rw [claimAll_cons, ih, get?_claim, Option.or_assoc]
    by_cases same : normalizeAddress c.1 = normalizeAddress a <;> simp [same]

theorem get?_claimAll_empty (cs : List (Text × α)) (a : Text) :
    (empty.claimAll cs).get? a =
      (cs.find? fun c => normalizeAddress c.1 == normalizeAddress a).map (·.2) := by
  simp [get?_claimAll, get?_empty]

theorem has_claimAll_empty (cs : List (Text × α)) (a : Text) :
    (empty.claimAll cs).has a = cs.any fun c => normalizeAddress c.1 == normalizeAddress a := by
  rw [has, get?_claimAll_empty, Option.isSome_map, List.isSome_find?]

theorem nodup_addresses_claim (t : PeerTable α) (b : Text) (p : α) (nodup : t.addresses.Nodup) :
    (t.claim b p).2.addresses.Nodup := by
  rw [addresses_claim]
  split
  case isTrue => exact nodup
  case isFalse free =>
    have fresh : normalizeAddress b ∉ t.addresses :=
      fun listed => free ((has_iff_mem t b).mpr listed)
    refine List.nodup_append.mpr ⟨nodup, List.nodup_singleton _, ?_⟩
    intro x listed y added
    rw [List.mem_singleton.mp added]
    exact fun same => fresh (same ▸ listed)

theorem nodup_addresses_claimAll (t : PeerTable α) (cs : List (Text × α))
    (nodup : t.addresses.Nodup) :
    (t.claimAll cs).addresses.Nodup := by
  induction cs generalizing t with
  | nil => exact nodup
  | cons c cs ih => exact ih _ (nodup_addresses_claim t c.1 c.2 nodup)

theorem addresses_claimAll_empty (cs : List (Text × α)) :
    (empty.claimAll cs).addresses = (cs.map fun c => normalizeAddress c.1).eraseDups := by
  induction cs using List.reverseRecOn with
  | nil => rfl
  | append_singleton cs c ih =>
    rw [claimAll_concat, addresses_claim, ih, List.map_append, List.eraseDups_append]
    by_cases taken : (empty.claimAll cs).has c.1 = true
    · have listed : normalizeAddress c.1 ∈ cs.map fun c => normalizeAddress c.1 := by
        simpa [has_claimAll_empty] using taken
      simp [taken, List.removeAll, listed]
    · have unlisted : normalizeAddress c.1 ∉ cs.map fun c => normalizeAddress c.1 := by
        simpa [has_claimAll_empty] using taken
      simp [taken, List.removeAll, unlisted, List.eraseDups_cons]

theorem get?_of_listed (t : PeerTable α) {x : Text} (listed : x ∈ t.addresses)
    (unmapped : x.startsWith mappedPrefix = false) :
    t.has x = true ∧ t.get? x = t.entries.lookup x := by
  have normal : normalizeAddress x = x := normalizeAddress_of_unmapped unmapped
  refine ⟨(has_iff_mem t x).mpr ?_, by rw [get?_eq_lookup, normal]⟩
  rw [normal]
  exact listed

theorem claims_keep_first_per_address (cs : List (Text × α)) :
    (∀ (pre : List (Text × α)) (c : Text × α), ((empty.claimAll pre).claim c.1 c.2).1 =
      !pre.any fun p => normalizeAddress p.1 == normalizeAddress c.1) ∧
    (∀ a, (empty.claimAll cs).get? a =
      (cs.find? fun c => normalizeAddress c.1 == normalizeAddress a).map (·.2)) ∧
    (∀ a, (empty.claimAll cs).has a = cs.any fun c => normalizeAddress c.1 == normalizeAddress a) ∧
    (empty.claimAll cs).addresses = (cs.map fun c => normalizeAddress c.1).eraseDups ∧
    (empty.claimAll cs).addresses.Nodup ∧
    (empty.claimAll cs).size = (empty.claimAll cs).addresses.length ∧
    (∀ x ∈ (empty.claimAll cs).addresses, x.startsWith mappedPrefix = false →
      (empty.claimAll cs).has x = true ∧
        (empty.claimAll cs).get? x = (empty.claimAll cs).entries.lookup x) := by
  refine ⟨fun pre c => ?_, get?_claimAll_empty cs, has_claimAll_empty cs,
    addresses_claimAll_empty cs, nodup_addresses_claimAll empty cs List.nodup_nil,
    size_eq_length_addresses _,
    fun x listed unmapped => get?_of_listed _ listed unmapped⟩
  rw [claim_fst, has_claimAll_empty]

/-- An address claimed with the prefix twice is listed with it once, and that listed address is
not found: looking it up strips the remaining prefix. -/
theorem doubly_mapped_address_not_found :
    (empty.claimAll [(Text.ofString "::ffff:::ffff:1.2.3.4", Text.ofString "s")]).addresses =
      [Text.ofString "::ffff:1.2.3.4"] ∧
    (empty.claimAll [(Text.ofString "::ffff:::ffff:1.2.3.4", Text.ofString "s")]).has
      (Text.ofString "::ffff:1.2.3.4") = false := by
  decide

end PeerMessaging.PeerTable
