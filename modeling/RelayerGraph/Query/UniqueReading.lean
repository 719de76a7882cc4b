import RelayerGraph.Query.AcceptedClauses

/-!
# Pattern parts are read in one way

The tokens of a MATCH clause determine its parts: no two lists of parts are
written with the same tokens.
-/

namespace RelayerGraph.Query

theorem NodeSyntax.tokens_append_inj {node node' : NodeSyntax}
    {rest rest' : List Token}
    (h : node.tokens ++ rest = node'.tokens ++ rest') :
    node = node' ∧ rest = rest' := by
  obtain ⟨binding, label⟩ := node
  obtain ⟨binding', label'⟩ := node'
  cases label <;> cases label' <;> simp_all [NodeSyntax.tokens]

theorem RelationshipSyntax.body_append_inj
    {relationship relationship' : RelationshipSyntax}
    {rest rest' : List Token}
    (h : relationship.body ++ rest = relationship'.body ++ rest') :
    relationship.binding = relationship'.binding ∧
      relationship.typeName = relationship'.typeName ∧
      relationship.closing = relationship'.closing ∧ rest = rest' := by
  obtain ⟨direction, binding, typeName⟩ := relationship
  obtain ⟨direction', binding', typeName'⟩ := relationship'
  cases binding <;> cases binding' <;>
    simp [RelationshipSyntax.body] at h ⊢ <;> exact h

theorem RelationshipSyntax.tokens_append_inj
    {relationship relationship' : RelationshipSyntax}
    {rest rest' : List Token}
    (h : relationship.tokens ++ rest = relationship'.tokens ++ rest') :
    relationship = relationship' ∧ rest = rest' := by
  have hopening : relationship.opening = relationship'.opening ∧
      relationship.body ++ rest = relationship'.body ++ rest' := by
    simp only [RelationshipSyntax.tokens, List.append_assoc] at h
    unfold RelationshipSyntax.opening at h ⊢
    split at h <;> split at h <;> simp_all
  obtain ⟨hbinding, htype, hclosing, hrest⟩ :=
    body_append_inj hopening.2
  obtain ⟨direction, binding, typeName⟩ := relationship
  obtain ⟨direction', binding', typeName'⟩ := relationship'
  have hdirection : direction = direction' := by
    have hboth := hopening.1
    cases direction <;> cases direction' <;>
      simp_all [RelationshipSyntax.opening, RelationshipSyntax.closing]
  simp_all

theorem HopSyntax.tokens_append_inj {hop hop' : HopSyntax}
    {rest rest' : List Token}
    (h : hop.tokens ++ rest = hop'.tokens ++ rest') :
    hop = hop' ∧ rest = rest' := by
  obtain ⟨relationship, target⟩ := hop
  obtain ⟨relationship', target'⟩ := hop'
  simp only [HopSyntax.tokens, List.append_assoc] at h
  obtain ⟨rfl, htarget⟩ := RelationshipSyntax.tokens_append_inj h
  obtain ⟨rfl, hrest⟩ := NodeSyntax.tokens_append_inj htarget
  exact ⟨rfl, hrest⟩

theorem HopSyntax.startsHop (hop : HopSyntax) (rest : List Token) :
    StartsHop (hop.tokens ++ rest) := by
  obtain ⟨⟨direction, binding, typeName⟩, target⟩ := hop
  cases direction <;>
    simp [StartsHop, HopSyntax.tokens, RelationshipSyntax.tokens,
      RelationshipSyntax.opening]

theorem hops_append_inj {syns syns' : List HopSyntax}
    {rest rest' : List Token} (hend : ¬ StartsHop rest)
    (hend' : ¬ StartsHop rest')
    (h : syns.flatMap HopSyntax.tokens ++ rest =
      syns'.flatMap HopSyntax.tokens ++ rest') :
    syns = syns' ∧ rest = rest' := by
  induction syns generalizing syns' with
  | nil =>
      cases syns' with
      | nil => exact ⟨rfl, h⟩
      | cons hop' syns' =>
          simp only [List.flatMap_nil, List.nil_append, List.flatMap_cons,
            List.append_assoc] at h
          rw [h] at hend
          exact absurd (hop'.startsHop _) hend
  | cons hop syns ih =>
      cases syns' with
      | nil =>
          simp only [List.flatMap_nil, List.nil_append, List.flatMap_cons,
            List.append_assoc] at h
          rw [← h] at hend'
          exact absurd (hop.startsHop _) hend'
      | cons hop' syns' =>
          simp only [List.flatMap_cons, List.append_assoc] at h
          obtain ⟨rfl, hothers⟩ := HopSyntax.tokens_append_inj h
          obtain ⟨rfl, hrest⟩ := ih hothers
          exact ⟨rfl, hrest⟩

theorem PartSyntax.tokens_append_inj {part part' : PartSyntax}
    {rest rest' : List Token} (hend : ¬ StartsHop rest)
    (hend' : ¬ StartsHop rest')
    (h : part.tokens ++ rest = part'.tokens ++ rest') :
    part = part' ∧ rest = rest' := by
  obtain ⟨path, first, hops⟩ := part
  obtain ⟨path', first', hops'⟩ := part'
  simp only [PartSyntax.tokens, List.append_assoc] at h
  obtain ⟨rfl, hpart⟩ : path = path' ∧
      first.tokens ++ (hops.flatMap HopSyntax.tokens ++ rest) =
        first'.tokens ++ (hops'.flatMap HopSyntax.tokens ++ rest') := by
    cases path <;> cases path' <;> simp_all [NodeSyntax.tokens]
  obtain ⟨rfl, hhops⟩ := NodeSyntax.tokens_append_inj hpart
  obtain ⟨rfl, hrest⟩ := hops_append_inj hend hend' hhops
  exact ⟨rfl, hrest⟩

theorem furtherTokens_append_inj {parts parts' : List PartSyntax}
    {rest rest' : List Token} (hend : EndsMatch rest)
    (hend' : EndsMatch rest')
    (h : furtherTokens parts ++ rest = furtherTokens parts' ++ rest') :
    parts = parts' ∧ rest = rest' := by
  induction parts generalizing parts' with
  | nil =>
      cases parts' with
      | nil => exact ⟨rfl, h⟩
      | cons part' parts' =>
          refine absurd ?_ hend.2
          have hrest : rest = furtherTokens (part' :: parts') ++ rest' := h
          rw [hrest]
          rfl
  | cons part parts ih =>
      cases parts' with
      | nil =>
          refine absurd ?_ hend'.2
          have hrest : furtherTokens (part :: parts) ++ rest = rest' := h
          rw [← hrest]
          rfl
      | cons part' parts' =>
          simp only [furtherTokens, List.flatMap_cons, List.cons_append,
            List.append_assoc, List.cons.injEq, true_and] at h
          obtain ⟨rfl, hothers⟩ := PartSyntax.tokens_append_inj
            (not_startsHop_furtherTokens hend) (not_startsHop_furtherTokens hend')
            h
          obtain ⟨rfl, hrest⟩ := ih hothers
          exact ⟨rfl, hrest⟩

/-- The parts of a MATCH clause and what follows it are determined by the
tokens. -/
theorem matchTokens_append_inj {parts parts' : List PartSyntax}
    {rest rest' : List Token} (hne : parts ≠ []) (hne' : parts' ≠ [])
    (hend : EndsMatch rest) (hend' : EndsMatch rest')
    (h : matchTokens parts ++ rest = matchTokens parts' ++ rest') :
    parts = parts' ∧ rest = rest' := by
  cases parts with
  | nil => exact absurd rfl hne
  | cons part parts =>
      cases parts' with
      | nil => exact absurd rfl hne'
      | cons part' parts' =>
          simp only [matchTokens, List.append_assoc] at h
          obtain ⟨rfl, hothers⟩ := PartSyntax.tokens_append_inj
            (not_startsHop_furtherTokens hend) (not_startsHop_furtherTokens hend')
            h
          obtain ⟨rfl, hrest⟩ := furtherTokens_append_inj hend hend' hothers
          exact ⟨rfl, hrest⟩

end RelayerGraph.Query
