import Mathlib.Data.List.Nodup

/-!
# Paths

A path as the list of its edges, read from its start.
-/

namespace Path

variable {ε α : Type*} {src dst : ε → α} {start stop : α} {edges : List ε} {e : ε}

/-- The vertices of a path: its start and where each edge arrives. -/
def vertices (dst : ε → α) (start : α) (edges : List ε) : List α := start :: edges.map dst

/-- Every edge leaves from where the one before it arrived, and the last one arrives at `stop`. -/
def Linked (src dst : ε → α) (start : α) (edges : List ε) (stop : α) : Prop :=
  edges.map src ++ [stop] = vertices dst start edges

theorem vertices_snoc : vertices dst start (edges ++ [e]) = vertices dst start edges ++ [dst e] := by
  simp [vertices]

theorem Linked.nil : Linked src dst start [] start := rfl

/-- A path without edges stays where it starts. -/
theorem linked_nil : Linked src dst start [] stop ↔ stop = start := by
  simp [Linked, vertices]

/-- A path starts with an edge from its start. -/
theorem linked_cons : Linked src dst start (e :: edges) stop ↔
    src e = start ∧ Linked src dst (dst e) edges stop := by
  simp [Linked, vertices]

/-- A path grows by an edge that leaves from its end. -/
theorem Linked.snoc (h : Linked src dst start edges stop) (he : src e = stop) :
    Linked src dst start (edges ++ [e]) (dst e) := by
  unfold Linked at h ⊢
  rw [vertices_snoc, ← h, List.map_append, ← he]
  rfl

/-- A path that arrives at a new vertex does not repeat any. -/
theorem nodup_vertices_snoc (h : (vertices dst start edges).Nodup)
    (he : dst e ∉ vertices dst start edges) : (vertices dst start (edges ++ [e])).Nodup := by
  rw [vertices_snoc, ← List.concat_eq_append]
  exact h.concat he

/-- An edge of a path that repeats no vertex arrives at a new one. -/
theorem notMem_vertices_of_nodup {more : List ε}
    (h : (vertices dst start (edges ++ e :: more)).Nodup) : dst e ∉ vertices dst start edges := by
  have hsplit : vertices dst start (edges ++ e :: more) =
      vertices dst start edges ++ dst e :: more.map dst := by
    simp [vertices]
  rw [hsplit] at h
  exact fun hmem => (List.nodup_append.mp h).2.2 _ hmem _ List.mem_cons_self rfl

/-- A property of the edges and their positions, kept when an edge is added. -/
theorem forall_getElem?_snoc {P : Nat → ε → Prop} (h : ∀ n e', edges[n]? = some e' → P n e')
    (he : P edges.length e) : ∀ n e', (edges ++ [e])[n]? = some e' → P n e' := by
  intro n e' hn
  rw [List.getElem?_append] at hn
  split at hn
  · exact h n e' hn
  · rename_i hlen
    rw [List.getElem?_singleton] at hn
    split at hn
    · have hn' : n = edges.length := by omega
      cases hn
      exact hn' ▸ he
    · cases hn

end Path
