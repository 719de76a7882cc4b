import RelayerGraph.Query.Parser

/-!
# What a MATCH clause binds

The names a MATCH clause binds, and the claims it is made of: that a name is a
node, with a label or without one, that it is a relationship of a type, or that
it is a path.  A claim that does not fit the scope fails.  Claims may be made in
any order.
-/

namespace RelayerGraph.Query

/-- The names bound so far, each in one role. -/
structure Scope where
  bindings : Finmap fun _ : String => Option NodeLabel
  relationshipBindings : Finmap fun _ : String => RelationshipType
  pathBindings : Finset String

namespace Scope

def empty : Scope := ⟨∅, ∅, ∅⟩

/-- The label of a node, where it is known. -/
def label (s : Scope) (binding : String) : Option NodeLabel :=
  (s.bindings.lookup binding).join

def Binds (s : Scope) (binding : String) : Prop :=
  binding ∈ s.bindings ∨ binding ∈ s.relationshipBindings
    ∨ binding ∈ s.pathBindings

instance (s : Scope) (binding : String) : Decidable (s.Binds binding) :=
  inferInstanceAs (Decidable (_ ∨ _))

end Scope

/-- What a pattern says of one name. -/
inductive Claim where
  | node (binding : String) (label : Option NodeLabel)
  | relationship (binding : String) (relationshipType : RelationshipType)
  | path (binding : String)
deriving DecidableEq

namespace Scope

/-- Two labels fit when they are not two different ones. -/
def Fits (label label' : Option NodeLabel) : Prop :=
  label = none ∨ label' = none ∨ label = label'

instance (label label' : Option NodeLabel) : Decidable (Fits label label') :=
  inferInstanceAs (Decidable (_ ∨ _))

/-- A claim fits a scope when it gives a name no second role and no second
label. -/
def Admits (s : Scope) : Claim → Prop
  | .node binding label =>
      binding ∉ s.relationshipBindings ∧ binding ∉ s.pathBindings ∧
        Fits (s.label binding) label
  | .relationship binding _ => ¬ s.Binds binding
  | .path binding => ¬ s.Binds binding

instance (s : Scope) : (c : Claim) → Decidable (s.Admits c)
  | .node _ _ => inferInstanceAs (Decidable (_ ∧ _))
  | .relationship _ _ => inferInstanceAs (Decidable (¬ _))
  | .path _ => inferInstanceAs (Decidable (¬ _))

/-- The scope with a claim added to it. -/
def add (s : Scope) : Claim → Scope
  | .node binding label =>
      { s with
        bindings := s.bindings.insert binding ((s.label binding).or label) }
  | .relationship binding relationshipType =>
      { s with
        relationshipBindings :=
          s.relationshipBindings.insert binding relationshipType }
  | .path binding => { s with pathBindings := insert binding s.pathBindings }

/-- The scope with one more claim, if the claim fits it. -/
def claim (s : Scope) (c : Claim) : Option Scope :=
  if s.Admits c then some (s.add c) else none

/-- The scope with a list of claims. -/
def claims (s : Scope) (list : List Claim) : Option Scope :=
  list.foldlM claim s

@[simp]
theorem claims_nil (s : Scope) : s.claims [] = some s := rfl

@[simp]
theorem claims_cons (s : Scope) (c : Claim) (list : List Claim) :
    s.claims (c :: list) = (s.claim c).bind (·.claims list) := rfl

theorem claims_append (s : Scope) (list list' : List Claim) :
    s.claims (list ++ list') = (s.claims list).bind (·.claims list') := by
  simp only [claims, List.foldlM_append]
  rfl

theorem claim_eq_some_iff {s t : Scope} {c : Claim} :
    s.claim c = some t ↔ s.Admits c ∧ t = s.add c := by
  unfold claim
  split
  · rename_i h
    simp [h, eq_comm]
  · rename_i h
    simp [h]

theorem claims_cons_eq_some_iff {s t : Scope} {c : Claim}
    {list : List Claim} :
    s.claims (c :: list) = some t ↔
      s.Admits c ∧ (s.add c).claims list = some t := by
  rw [claims_cons, Option.bind_eq_some_iff]
  constructor
  · rintro ⟨u, hu, h⟩
    obtain ⟨hc, rfl⟩ := claim_eq_some_iff.mp hu
    exact ⟨hc, h⟩
  · rintro ⟨hc, h⟩
    exact ⟨_, claim_eq_some_iff.mpr ⟨hc, rfl⟩, h⟩

/-! ## What a claim changes -/

section

variable (s : Scope) (binding other : String)

@[simp]
theorem label_add_node_self (label : Option NodeLabel) :
    (s.add (.node binding label)).label binding =
      (s.label binding).or label := by
  simp [add, Scope.label]

theorem label_add_node_of_ne (label : Option NodeLabel)
    (h : other ≠ binding) :
    (s.add (.node binding label)).label other = s.label other := by
  simp [add, Scope.label, Finmap.lookup_insert_of_ne _ h]

theorem label_insert_of_ne {s : Scope} {binding other : String}
    {label : Option NodeLabel} (h : other ≠ binding) :
    Scope.label { s with bindings := s.bindings.insert binding label }
      other = s.label other := by
  simp [Scope.label, Finmap.lookup_insert_of_ne _ h]

@[simp]
theorem label_add_relationship (relationshipType : RelationshipType) :
    (s.add (.relationship binding relationshipType)).label other =
      s.label other := rfl

@[simp]
theorem label_add_path :
    (s.add (.path binding)).label other = s.label other := rfl

@[simp]
theorem mem_bindings_add_node (label : Option NodeLabel) :
    other ∈ (s.add (.node binding label)).bindings ↔
      other = binding ∨ other ∈ s.bindings :=
  Finmap.mem_insert

@[simp]
theorem mem_relationships_add_relationship
    (relationshipType : RelationshipType) :
    other ∈ (s.add (.relationship binding relationshipType)).relationshipBindings
      ↔ other = binding ∨ other ∈ s.relationshipBindings :=
  Finmap.mem_insert

@[simp]
theorem mem_paths_add_path :
    other ∈ (s.add (.path binding)).pathBindings ↔
      other = binding ∨ other ∈ s.pathBindings :=
  Finset.mem_insert

end

/-! ## What claims keep -/

/-- No name has a second role. -/
structure Separate (s : Scope) : Prop where
  nodes : ∀ binding ∈ s.bindings,
    binding ∉ s.relationshipBindings ∧ binding ∉ s.pathBindings
  relationships : ∀ binding ∈ s.relationshipBindings,
    binding ∉ s.pathBindings

theorem separate_empty : empty.Separate := by
  constructor
  · intro binding hbinding
    exact absurd hbinding Finmap.notMem_empty
  · intro binding hbinding
    exact absurd hbinding Finmap.notMem_empty

theorem Separate.add {s : Scope} {c : Claim} (hs : s.Separate)
    (hc : s.Admits c) : (s.add c).Separate := by
  cases c with
  | node binding label =>
      refine ⟨?_, hs.relationships⟩
      intro other hother
      rcases (mem_bindings_add_node ..).mp hother with rfl | hold
      · exact ⟨hc.1, hc.2.1⟩
      · exact hs.nodes other hold
  | relationship binding relationshipType =>
      constructor
      · intro other hother
        refine ⟨?_, (hs.nodes other hother).2⟩
        rw [mem_relationships_add_relationship]
        rintro (rfl | hold)
        · exact hc (.inl hother)
        · exact (hs.nodes other hother).1 hold
      · intro other hother
        rcases (mem_relationships_add_relationship ..).mp hother with
          rfl | hold
        · exact fun hpath => hc (.inr (.inr hpath))
        · exact hs.relationships other hold
  | path binding =>
      constructor
      · intro other hother
        refine ⟨(hs.nodes other hother).1, ?_⟩
        rw [mem_paths_add_path]
        rintro (rfl | hold)
        · exact hc (.inl hother)
        · exact (hs.nodes other hother).2 hold
      · intro other hother
        rw [mem_paths_add_path]
        rintro (rfl | hold)
        · exact hc (.inr (.inl hother))
        · exact hs.relationships other hother hold

/-- A node may always be named again, under a label that fits. -/
theorem Separate.admits_node_iff {s : Scope} {binding : String}
    {label : Option NodeLabel} (hs : s.Separate)
    (hbinding : binding ∈ s.bindings) :
    s.Admits (.node binding label) ↔ Fits (s.label binding) label := by
  obtain ⟨hrelationships, hpaths⟩ := hs.nodes binding hbinding
  simp [Admits, hrelationships, hpaths]

theorem mem_bindings_add {s : Scope} {c : Claim} {binding : String}
    (h : binding ∈ s.bindings) : binding ∈ (s.add c).bindings := by
  cases c with
  | node other label => exact (mem_bindings_add_node ..).mpr (.inr h)
  | relationship other relationshipType => exact h
  | path other => exact h

/-- A label that is known stays as it is. -/
theorem label_add {s : Scope} {c : Claim} {binding : String}
    {label : NodeLabel} (h : s.label binding = some label) :
    (s.add c).label binding = some label := by
  cases c with
  | node other label' =>
      by_cases hsame : binding = other
      · subst hsame
        rw [label_add_node_self, h, Option.some_or]
      · rwa [label_add_node_of_ne _ _ _ _ hsame]
  | relationship other relationshipType => exact h
  | path other => exact h

/-- What every claim that fits keeps, a list of claims keeps. -/
theorem claims_induction {P : Scope → Prop} {s t : Scope} {list : List Claim}
    (hadd : ∀ s c, P s → s.Admits c → P (s.add c)) (hs : P s)
    (h : s.claims list = some t) : P t := by
  induction list generalizing s with
  | nil =>
      obtain rfl := Option.some.inj h
      exact hs
  | cons c list ih =>
      rw [claims_cons, Option.bind_eq_some_iff] at h
      obtain ⟨u, hu, h⟩ := h
      obtain ⟨hc, rfl⟩ := claim_eq_some_iff.mp hu
      exact ih (hadd s c hs hc) h

theorem Separate.claims {s t : Scope} {list : List Claim} (hs : s.Separate)
    (h : s.claims list = some t) : t.Separate :=
  claims_induction (fun _ _ => Separate.add) hs h

theorem mem_bindings_claims {s t : Scope} {list : List Claim}
    {binding : String} (hs : binding ∈ s.bindings)
    (h : s.claims list = some t) : binding ∈ t.bindings :=
  claims_induction (P := fun u => binding ∈ u.bindings)
    (fun _ _ hmem _ => mem_bindings_add hmem) hs h

theorem label_claims {s t : Scope} {list : List Claim} {binding : String}
    {label : NodeLabel} (hs : s.label binding = some label)
    (h : s.claims list = some t) : t.label binding = some label :=
  claims_induction (P := fun u => u.label binding = some label)
    (fun _ _ hlabel _ => label_add hlabel) hs h

theorem mem_bindings_of_mem_claims {s t : Scope} {list : List Claim}
    {binding : String} {label : Option NodeLabel}
    (hmem : .node binding label ∈ list) (h : s.claims list = some t) :
    binding ∈ t.bindings := by
  induction list generalizing s with
  | nil => cases hmem
  | cons c list ih =>
      obtain ⟨-, h⟩ := claims_cons_eq_some_iff.mp h
      rcases List.mem_cons.mp hmem with rfl | hmem
      · exact mem_bindings_claims ((mem_bindings_add_node ..).mpr (.inl rfl)) h
      · exact ih hmem h

/-- A label that is claimed is the label of the node from then on. -/
theorem label_of_mem_claims {s t : Scope} {list : List Claim}
    {binding : String} {label : NodeLabel}
    (hmem : .node binding (some label) ∈ list) (h : s.claims list = some t) :
    t.label binding = some label := by
  induction list generalizing s with
  | nil => cases hmem
  | cons c list ih =>
      obtain ⟨hadmits, h⟩ := claims_cons_eq_some_iff.mp h
      rcases List.mem_cons.mp hmem with rfl | hmem
      · apply label_claims _ h
        rw [label_add_node_self]
        rcases hadmits.2.2 with hnone | hnone | hsame <;> simp_all
      · exact ih hmem h

/-! ## Where a bound name comes from -/

theorem mem_claims_of_mem_bindings {s t : Scope} {list : List Claim}
    {binding : String} (h : s.claims list = some t)
    (hmem : binding ∈ t.bindings) :
    binding ∈ s.bindings ∨ ∃ label, .node binding label ∈ list := by
  induction list generalizing s with
  | nil =>
      obtain rfl := Option.some.inj h
      exact .inl hmem
  | cons c list ih =>
      obtain ⟨-, h⟩ := claims_cons_eq_some_iff.mp h
      rcases ih h with hold | ⟨label, hlabel⟩
      · cases c with
        | node other label =>
            rcases (mem_bindings_add_node ..).mp hold with rfl | hold
            · exact .inr ⟨label, List.mem_cons_self⟩
            · exact .inl hold
        | relationship other relationshipType => exact .inl hold
        | path other => exact .inl hold
      · exact .inr ⟨label, List.mem_cons_of_mem _ hlabel⟩

theorem mem_claims_of_label {s t : Scope} {list : List Claim}
    {binding : String} {label : NodeLabel} (h : s.claims list = some t)
    (hlabel : t.label binding = some label) :
    s.label binding = some label ∨ .node binding (some label) ∈ list := by
  induction list generalizing s with
  | nil =>
      obtain rfl := Option.some.inj h
      exact .inl hlabel
  | cons c list ih =>
      obtain ⟨-, h⟩ := claims_cons_eq_some_iff.mp h
      rcases ih h with hold | hmem
      · cases c with
        | node other label' =>
            by_cases hsame : binding = other
            · subst hsame
              rw [label_add_node_self, Option.or_eq_some_iff] at hold
              rcases hold with hold | ⟨-, rfl⟩
              · exact .inl hold
              · exact .inr List.mem_cons_self
            · rw [label_add_node_of_ne _ _ _ _ hsame] at hold
              exact .inl hold
        | relationship other relationshipType => exact .inl hold
        | path other => exact .inl hold
      · exact .inr (List.mem_cons_of_mem _ hmem)

theorem mem_claims_of_lookup {s t : Scope} {list : List Claim}
    {binding : String} {relationshipType : RelationshipType}
    (h : s.claims list = some t)
    (hlookup : t.relationshipBindings.lookup binding = some relationshipType) :
    s.relationshipBindings.lookup binding = some relationshipType ∨
      .relationship binding relationshipType ∈ list := by
  induction list generalizing s with
  | nil =>
      obtain rfl := Option.some.inj h
      exact .inl hlookup
  | cons c list ih =>
      obtain ⟨-, h⟩ := claims_cons_eq_some_iff.mp h
      rcases ih h with hold | hmem
      · cases c with
        | node other label => exact .inl hold
        | relationship other relationshipType' =>
            by_cases hsame : binding = other
            · subst hsame
              simp only [add, Finmap.lookup_insert, Option.some.injEq] at hold
              subst hold
              exact .inr List.mem_cons_self
            · simp only [add, Finmap.lookup_insert_of_ne _ hsame] at hold
              exact .inl hold
        | path other => exact .inl hold
      · exact .inr (List.mem_cons_of_mem _ hmem)

theorem mem_relationships_of_mem_claims {s t : Scope} {list : List Claim}
    {binding : String} {relationshipType : RelationshipType}
    (hmem : .relationship binding relationshipType ∈ list)
    (h : s.claims list = some t) : binding ∈ t.relationshipBindings := by
  induction list generalizing s with
  | nil => cases hmem
  | cons c list ih =>
      obtain ⟨-, h⟩ := claims_cons_eq_some_iff.mp h
      rcases List.mem_cons.mp hmem with rfl | hmem
      · refine claims_induction (P := fun u => binding ∈ u.relationshipBindings)
          ?_ ((mem_relationships_add_relationship ..).mpr (.inl rfl)) h
        intro u c hu _
        cases c with
        | node other label => exact hu
        | relationship other relationshipType' =>
            exact (mem_relationships_add_relationship ..).mpr (.inr hu)
        | path other => exact hu
      · exact ih hmem h

theorem mem_paths_of_mem_claims {s t : Scope} {list : List Claim}
    {binding : String} (hmem : .path binding ∈ list)
    (h : s.claims list = some t) : binding ∈ t.pathBindings := by
  induction list generalizing s with
  | nil => cases hmem
  | cons c list ih =>
      obtain ⟨-, h⟩ := claims_cons_eq_some_iff.mp h
      rcases List.mem_cons.mp hmem with rfl | hmem
      · refine claims_induction (P := fun u => binding ∈ u.pathBindings)
          ?_ ((mem_paths_add_path ..).mpr (.inl rfl)) h
        intro u c hu _
        cases c with
        | node other label => exact hu
        | relationship other relationshipType => exact hu
        | path other => exact (mem_paths_add_path ..).mpr (.inr hu)
      · exact ih hmem h

/-! ## Claims in any order -/

theorem fits_comm {label label' : Option NodeLabel} :
    Fits label label' ↔ Fits label' label := by
  unfold Fits
  constructor <;> rintro (h | h | h) <;> simp [h]

/-- Two labels given to a node with a third may be given in either order. -/
theorem fits_or {label first second : Option NodeLabel} :
    (Fits label first ∧ Fits (label.or first) second) ↔
      (Fits label second ∧ Fits (label.or second) first) := by
  cases label <;> cases first <;> cases second <;>
    simp [Fits, eq_comm]
  rename_i a b c
  constructor <;> rintro ⟨rfl, rfl⟩ <;> simp

theorem or_or {label first second : Option NodeLabel}
    (h : Fits label first) (h' : Fits (label.or first) second) :
    (label.or first).or second = (label.or second).or first := by
  cases label <;> cases first <;> cases second <;> simp_all [Fits]

/-- Two claims fit in either order. -/
theorem admits_comm (s : Scope) (c d : Claim) :
    (s.Admits c ∧ (s.add c).Admits d) ↔ (s.Admits d ∧ (s.add d).Admits c) := by
  cases c with
  | node binding label =>
      cases d with
      | node other label' =>
          by_cases h : other = binding
          · subst h
            simp only [Admits, label_add_node_self]
            have hfits := @fits_or (s.label other) label label'
            simp only [add]
            tauto
          · simp only [Admits, label_add_node_of_ne _ _ _ _ h,
              label_add_node_of_ne _ _ _ _ (Ne.symm h)]
            simp only [add]
            tauto
      | relationship other relationshipType =>
          simp only [Admits, Binds, label_add_relationship,
            mem_bindings_add_node, mem_relationships_add_relationship]
          simp only [add]
          have hcomm : other = binding ↔ binding = other := eq_comm
          tauto
      | path other =>
          simp only [Admits, Binds, label_add_path, mem_bindings_add_node,
            mem_paths_add_path]
          simp only [add]
          have hcomm : other = binding ↔ binding = other := eq_comm
          tauto
  | relationship binding relationshipType =>
      cases d with
      | node other label =>
          simp only [Admits, Binds, label_add_relationship,
            mem_bindings_add_node, mem_relationships_add_relationship]
          simp only [add]
          have hcomm : other = binding ↔ binding = other := eq_comm
          tauto
      | relationship other relationshipType' =>
          simp only [Admits, Binds, mem_relationships_add_relationship]
          simp only [add]
          have hcomm : other = binding ↔ binding = other := eq_comm
          tauto
      | path other =>
          simp only [Admits, Binds, mem_relationships_add_relationship,
            mem_paths_add_path]
          simp only [add]
          have hcomm : other = binding ↔ binding = other := eq_comm
          tauto
  | path binding =>
      cases d with
      | node other label =>
          simp only [Admits, Binds, label_add_path, mem_bindings_add_node,
            mem_paths_add_path]
          simp only [add]
          have hcomm : other = binding ↔ binding = other := eq_comm
          tauto
      | relationship other relationshipType =>
          simp only [Admits, Binds, mem_relationships_add_relationship,
            mem_paths_add_path]
          simp only [add]
          have hcomm : other = binding ↔ binding = other := eq_comm
          tauto
      | path other =>
          simp only [Admits, Binds, mem_paths_add_path]
          simp only [add]
          have hcomm : other = binding ↔ binding = other := eq_comm
          tauto

/-- Two claims that fit add the same in either order. -/
theorem add_comm {s : Scope} {c d : Claim} (hc : s.Admits c)
    (hd : (s.add c).Admits d) : (s.add c).add d = (s.add d).add c := by
  cases c with
  | node binding label =>
      cases d with
      | node other label' =>
          by_cases h : other = binding
          · subst h
            have hfirst := hc.2.2
            have hsecond := hd.2.2
            rw [label_add_node_self] at hsecond
            have hor := or_or hfirst hsecond
            simp only [add, Scope.label, Finmap.insert_insert,
              Finmap.lookup_insert, Option.join_some] at hor ⊢
            rw [hor]
          · have h' : binding ≠ other := Ne.symm h
            simp only [add]
            rw [label_insert_of_ne h, label_insert_of_ne h',
              Finmap.insert_insert_of_ne _ h']
      | relationship other relationshipType => rfl
      | path other => rfl
  | relationship binding relationshipType =>
      cases d with
      | node other label => rfl
      | relationship other relationshipType' =>
          have h : binding ≠ other := by
            rintro rfl
            apply hd
            simp [Binds]
          simp only [add]
          rw [Finmap.insert_insert_of_ne _ h]
      | path other => rfl
  | path binding =>
      cases d with
      | node other label => rfl
      | relationship other relationshipType => rfl
      | path other =>
          simp only [add]
          rw [Finset.insert_comm]

/-- Two claims may be made in either order. -/
theorem claim_comm (s : Scope) (c d : Claim) :
    (s.claim c).bind (·.claim d) = (s.claim d).bind (·.claim c) := by
  have hcomm := admits_comm s c d
  by_cases hcd : s.Admits c ∧ (s.add c).Admits d
  · have hdc := hcomm.mp hcd
    have heq := add_comm hcd.1 hcd.2
    simp [claim, hcd.1, hcd.2, hdc.1, hdc.2, heq]
  · have hdc : ¬ (s.Admits d ∧ (s.add d).Admits c) := mt hcomm.mpr hcd
    have hnone (a b : Claim) (h : ¬ (s.Admits a ∧ (s.add a).Admits b)) :
        (s.claim a).bind (·.claim b) = none := by
      by_cases ha : s.Admits a
      · have hb : ¬ (s.add a).Admits b := fun hb => h ⟨ha, hb⟩
        simp [claim, ha, hb]
      · simp [claim, ha]
    rw [hnone c d hcd, hnone d c hdc]

/-- Claims may be made in any order. -/
theorem claims_perm {list list' : List Claim} (h : list.Perm list')
    (s : Scope) : s.claims list = s.claims list' := by
  induction h generalizing s with
  | nil => rfl
  | cons c _ ih =>
      simp only [claims_cons]
      cases s.claim c with
      | none => rfl
      | some t => exact ih t
  | swap c d list =>
      have hpair (a b : Claim) : s.claims (a :: b :: list) =
          ((s.claim a).bind (·.claim b)).bind (·.claims list) := by
        simp only [claims_cons, Option.bind_assoc]
      rw [hpair, hpair, claim_comm]
  | trans _ _ ih ih' => rw [ih, ih']

end Scope

end RelayerGraph.Query
