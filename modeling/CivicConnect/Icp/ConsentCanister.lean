import CivicConnect.Library.Machine
import Mathlib.Data.Finset.Card
import Mathlib.Data.Finset.Insert

/-!
# The consent canister

A linked list of nodes with one key each, under the name of a trie, and beside
it the versions of all manifests that were ever put. The type `Trie` is read as
the variant that the patterns over it take it for.
-/

namespace CivicConnect.Icp

structure Manifest where
  version : String
  telemetry : String
  indexing : String
  cid : Option String
  deriving DecidableEq, Repr

inductive Trie where
  | empty
  | node (key : String) (value : Manifest) (next : Trie)
  deriving DecidableEq, Repr

def putTrie (t : Trie) (k : String) (v : Manifest) : Trie :=
  match t with
  | .empty => .node k v .empty
  | .node key value next =>
      if key = k then .node k v next else .node key value (putTrie next k v)

def lookupTrie (t : Trie) (k : String) : Option Manifest :=
  match t with
  | .empty => none
  | .node key value next => if key = k then some value else lookupTrie next k

structure Consent where
  versions : List String
  store : Trie

namespace Consent

def initial : Consent := ⟨[], .empty⟩

def put (s : Consent) (key : String) (m : Manifest) : Consent × Bool :=
  ({ versions := s.versions ++ [m.version], store := putTrie s.store key m }, true)

def get (s : Consent) (key : String) : Option Manifest := lookupTrie s.store key

def listVersions (s : Consent) : List String := s.versions

/-- The canister after a sequence of puts. -/
def after (s : Consent) (puts : List (String × Manifest)) : Consent :=
  Machine.final (fun s (p : String × Manifest) => s.put p.1 p.2) s puts

end Consent

namespace Trie

variable (t : Trie) (k k' : String) (v : Manifest)

/-- The keys of the nodes, in their order. -/
def keys : Trie → List String
  | .empty => []
  | .node key _ next => key :: next.keys

theorem lookup_put_self : lookupTrie (putTrie t k v) k = some v := by
  induction t with
  | empty => simp [putTrie, lookupTrie]
  | node key value next ih =>
      rw [putTrie]
      split
      · simp [lookupTrie]
      · next hne => rw [lookupTrie, if_neg hne, ih]

theorem lookup_put_ne {k k' : String} (h : k' ≠ k) :
    lookupTrie (putTrie t k v) k' = lookupTrie t k' := by
  induction t with
  | empty => simp [putTrie, lookupTrie, h.symm]
  | node key value next ih =>
      rw [putTrie]
      split
      · next heq =>
          subst heq
          rw [lookupTrie, lookupTrie, if_neg h.symm, if_neg h.symm]
      · rw [lookupTrie, lookupTrie, ih]

theorem keys_put : (putTrie t k v).keys = if k ∈ t.keys then t.keys else t.keys ++ [k] := by
  induction t with
  | empty => rfl
  | node key value next ih =>
      rw [putTrie]
      split
      · next heq => simp [keys, heq]
      · next hne =>
          simp only [keys, ih, List.mem_cons, Ne.symm hne, false_or]
          split <;> rfl

theorem nodup_keys_put (h : t.keys.Nodup) : (putTrie t k v).keys.Nodup := by
  rw [keys_put]
  split
  · exact h
  · next hnew => exact List.nodup_append.mpr ⟨h, List.nodup_singleton k, by grind⟩

theorem toFinset_keys_put : (putTrie t k v).keys.toFinset = insert k t.keys.toFinset := by
  rw [keys_put]
  split
  · next hmem => exact (Finset.insert_eq_self.mpr (List.mem_toFinset.mpr hmem)).symm
  · ext key
    simp

end Trie

namespace Consent

variable (s : Consent) (puts : List (String × Manifest))

theorem after_snoc (p : String × Manifest) :
    s.after (puts ++ [p]) = ((s.after puts).put p.1 p.2).1 :=
  Machine.final_append s puts [p]

/-- What the last of the puts with the key has put. -/
def lastPut (key : String) : Option Manifest :=
  (puts.reverse.find? fun p => p.1 = key).map Prod.snd

theorem lastPut_snoc (p : String × Manifest) (key : String) :
    lastPut (puts ++ [p]) key = if p.1 = key then some p.2 else lastPut puts key := by
  rw [lastPut, List.reverse_append, List.reverse_singleton, List.singleton_append]
  split
  · next heq => rw [List.find?_cons_of_pos (by simp [heq])]; rfl
  · next hne => rw [List.find?_cons_of_neg (by simp [hne])]; rfl

theorem get_put_self (key : String) (m : Manifest) : (s.put key m).1.get key = some m :=
  Trie.lookup_put_self s.store key m

theorem get_put_ne {key key' : String} (h : key' ≠ key) (m : Manifest) :
    (s.put key m).1.get key' = s.get key' :=
  Trie.lookup_put_ne s.store m h

theorem get_after (key : String) : (initial.after puts).get key = lastPut puts key := by
  induction puts using List.reverseRecOn with
  | nil => rfl
  | append_singleton puts p ih =>
      rw [after_snoc, lastPut_snoc]
      split
      · next heq => rw [← heq, get_put_self]
      · next hne => rw [get_put_ne _ (Ne.symm hne), ih]

theorem nodup_keys_after : (initial.after puts).store.keys.Nodup := by
  induction puts using List.reverseRecOn with
  | nil => exact List.nodup_nil
  | append_singleton puts p ih =>
      rw [after_snoc]
      exact Trie.nodup_keys_put _ p.1 p.2 ih

theorem toFinset_keys_after :
    (initial.after puts).store.keys.toFinset = (puts.map Prod.fst).toFinset := by
  induction puts using List.reverseRecOn with
  | nil => rfl
  | append_singleton puts p ih =>
      rw [after_snoc, put, Trie.toFinset_keys_put, ih]
      ext key
      simp

theorem listVersions_after :
    (initial.after puts).listVersions = puts.map fun p => p.2.version := by
  induction puts using List.reverseRecOn with
  | nil => rfl
  | append_singleton puts p ih =>
      have hversions : (initial.after puts).versions = puts.map fun p => p.2.version := ih
      rw [after_snoc, listVersions, put, hversions, List.map_append]
      rfl

/-- After any puts the canister answers as a map does, with one node for each
key, and has the versions of all of them. -/
theorem canister_is_map_with_log :
    (∀ key, (initial.after puts).get key = lastPut puts key) ∧
      (initial.after puts).store.keys.Nodup ∧
      (initial.after puts).store.keys.length = (puts.map Prod.fst).toFinset.card ∧
      (∀ key m key', key' ≠ key →
        ((initial.after puts).put key m).1.get key' = (initial.after puts).get key') ∧
      (initial.after puts).listVersions = puts.map fun p => p.2.version := by
  have hnodup := nodup_keys_after puts
  refine ⟨get_after puts, hnodup, ?_, ?_, listVersions_after puts⟩
  · rw [← toFinset_keys_after, List.toFinset_card_of_nodup hnodup]
  · intro key m key' hne
    exact get_put_ne _ hne m

def sampleManifest (version : String) : Manifest := ⟨version, "off", "on", none⟩

theorem canister_is_map_with_log_sample :
    "b" ≠ "a" ∧ ((initial.after [("b", sampleManifest "1")]).put "a" (sampleManifest "2")).1.get
      "b" = some (sampleManifest "1") := by
  obtain ⟨hget, _, _, hother, _⟩ := canister_is_map_with_log [("b", sampleManifest "1")]
  have hne : "b" ≠ "a" := by decide
  exact ⟨hne, (hother "a" (sampleManifest "2") "b" hne).trans (hget "b")⟩

end Consent

end CivicConnect.Icp
