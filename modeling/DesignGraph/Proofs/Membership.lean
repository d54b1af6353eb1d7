/-
  Membership — the lists of an owner, and who asks to be in them.

  An entity belongs in the lists of the owners that it names (`Data.links`).  The
  owners are those of its request, and being listed extends the lists in question
  and no other.

  * `Link.ownerOf` is the owner that an entity names for a list of its kind,
    `Link.askedOf` the one that a request names; a new entity names what was asked
    (`ownerOf_data`), and such an owner has the list (`Grant.exists_listing`);
  * `Graph.listing` reads a list of an owner; `listing_modifyData`,
    `listing_enlist_self`, `listing_enlist_of_ne`: what listing an entity does to
    it; `listing_free_of_ne`, `WriteEffect.listing`, `listing_appoint`: other steps
    leave it alone;
  * `Birth.child?` is the new entity as a member of a list; `Grant.listing_install`:
    it is added at the end of the lists that it asked for.
-/
import DesignGraph.Proofs.Registry

namespace DesignGraph

open DesignGraph.Graph (Draft)

/-! ## Owners -/

namespace Link

/-- The owner in whose list an entity says that it is. -/
def ownerOf : {owner member : Kind} → Link owner member → Data member → Option (EntityId owner)
  | _, _, params, p => some p.parent
  | _, _, ports, p => some p.parent
  | _, _, uses, i => some i.target
  | _, _, decls, d => some d.parent
  | _, _, code, c => some c.parent
  | _, _, contents, i => i.parent
  | _, _, regfiles, r => some r.parent
  | _, _, adjustments, a => some a.parent
  | _, _, pins, p => some p.parent
  | _, _, entries, e => some e.parent
  | _, _, registers, r => some r.parent

/-- The owner in whose list a new entity is to be. -/
def askedOf : {owner member : Kind} → Link owner member → Request member →
    Option (EntityId owner)
  | _, _, params, .param _ _ _ parent => some parent
  | _, _, ports, .port _ _ parent => some parent
  | _, _, uses, .inst _ target _ => some target
  | _, _, decls, .decl _ _ _ parent => some parent
  | _, _, code, .code _ _ parent => some parent
  | _, _, contents, .inst _ _ parent => parent
  | _, _, regfiles, .regfile _ parent => some parent
  | _, _, adjustments, .adjustment _ _ parent => some parent
  | _, _, pins, .pin _ _ parent => some parent
  | _, _, entries, .entry _ parent => some parent
  | _, _, registers, .register _ parent => some parent

variable {owner member : Kind}

theorem ownerOf_bare (l : Link owner member) (d : Data member) :
    l.ownerOf d.bare = l.ownerOf d := by cases l <;> rfl

/-- A list is not changed by additions to another one. -/
theorem members_add_of_ne {other : Kind} (l : Link owner member) (l' : Link owner other)
    (x : EntityId other) (d : Data owner)
    (h : (⟨member, l⟩ : (k : Kind) × Link owner k) ≠ ⟨other, l'⟩) :
    l.members (l'.add x d) = l.members d := by
  cases l <;> cases l' <;> first
    | rfl
    | exact absurd rfl h
    | simp only [members, add, Option.map_map, Function.comp_def]

theorem members_appoint (l : Link .module member) (m : Module) (i : Option (EntityId .inst)) :
    l.members (m.appoint i) = l.members m := by
  cases l <;> first
    | rfl
    | simp only [members, Module.appoint, Option.map_map, Function.comp_def]

end Link

theorem Data.mem_links {owner member : Kind} {l : Link owner member} {o : EntityId owner}
    {d : Data member} : (⟨l, o⟩ : Membership member) ∈ Data.links d ↔ l.ownerOf d = some o := by
  cases l <;> simp [Data.links, Link.ownerOf, eq_comm]

/-- An entity is to be listed once in each of its lists. -/
theorem Data.nodup_links {kind : Kind} (d : Data kind) : (Data.links d).Nodup := by
  cases kind with
  | inst =>
    obtain ⟨target, parent, _, _⟩ := d
    cases parent <;> simp [Data.links]
  | _ => simp [Data.links]

/-! ## Lists -/

namespace Graph

variable {g : Graph} {kind owner member : Kind}

/-- A list of an owner, while the owner is there and has the list. -/
def listing (g : Graph) (l : Link owner member) (o : EntityId owner) :
    Option (Array (EntityId member)) :=
  (g.entity? o).bind fun e => l.members e.data

theorem listing_of_entity? {l : Link owner member} {o : EntityId owner} {e : Entity owner}
    (he : g.entity? o = some e) : g.listing l o = l.members e.data := by rw [listing, he]; rfl

theorem listing_of_tables {g' : Graph} (h : g'.tables = g.tables) (l : Link owner member)
    (o : EntityId owner) : g'.listing l o = g.listing l o := by rw [listing, entity?, h]; rfl

/-- A list is changed as the data of the owner are. -/
theorem listing_modifyData (l : Link owner member) (o : EntityId owner)
    {f : Data owner → Data owner}
    {h : Option (Array (EntityId member)) → Option (Array (EntityId member))}
    (hn : h none = none) (hf : ∀ d, l.members (f d) = h (l.members d)) :
    (g.modifyData o f).listing l o = h (g.listing l o) := by
  rw [listing, listing, entity?_modifyData_self]
  rcases g.entity? o with _ | e
  · exact hn.symm
  · exact hf e.data

theorem listing_modifyData_of_ne {i : EntityId kind} {f : Data kind → Data kind}
    {l : Link owner member} {o : EntityId owner} (h : (⟨owner, o⟩ : EntityRef) ≠ ⟨kind, i⟩) :
    (g.modifyData i f).listing l o = g.listing l o := by
  rw [listing, entity?_modifyData_of_ne h]; rfl

theorem listing_appoint (m : EntityId .module) (i : Option (EntityId .inst))
    (l : Link owner member) (o : EntityId owner) :
    (g.modifyData m (·.appoint i)).listing l o = g.listing l o := by
  by_cases h : (⟨owner, o⟩ : EntityRef) = ⟨.module, m⟩
  · cases h
    exact listing_modifyData (h := fun xs => xs) l m rfl (l.members_appoint · i)
  · exact listing_modifyData_of_ne h

theorem WriteEffect.listing {o : ObjectId} {w : Write} {g' : Graph} (ef : g.WriteEffect o w g')
    (l : Link owner member) (p : EntityId owner) : g'.listing l p = g.listing l p :=
  listing_of_tables ef.tables_eq l p

theorem listing_free_of_ne {id : EntityId kind} {l : Link owner member} {o : EntityId owner}
    (ho : (⟨owner, o⟩ : EntityRef) ≠ ⟨kind, id⟩) : (g.free id).listing l o = g.listing l o := by
  rw [listing, entity?_free_of_ne ho]; rfl

/-! ### Listing an entity -/

theorem listing_enlist_self (g : Graph) (id : EntityId kind) (l : Link owner kind)
    (o : EntityId owner) : (g.enlist id ⟨l, o⟩).listing l o = (g.listing l o).map (·.push id) :=
  listing_modifyData (h := Option.map (·.push id)) l o rfl (l.members_add id)

theorem listing_enlist_of_ne {id : EntityId kind} {l : Link owner member} {o : EntityId owner}
    {m : Membership kind} (h : (⟨member, ⟨l, o⟩⟩ : (k : Kind) × Membership k) ≠ ⟨kind, m⟩) :
    (g.enlist id m).listing l o = g.listing l o := by
  obtain ⟨l', i⟩ := m
  by_cases ho : (⟨owner, o⟩ : EntityRef) = ⟨_, i⟩
  · cases ho
    refine listing_modifyData (h := fun xs => xs) l o rfl fun d => l.members_add_of_ne l' id d ?_
    intro hl
    cases hl
    exact h rfl
  · exact listing_modifyData_of_ne ho

theorem listing_enlist_of_notMem {id : EntityId kind} {l : Link owner member} {o : EntityId owner}
    {ms : List (Membership kind)}
    (h : ∀ m ∈ ms, (⟨member, ⟨l, o⟩⟩ : (k : Kind) × Membership k) ≠ ⟨kind, m⟩) (g : Graph) :
    (ms.foldl (enlist · id) g).listing l o = g.listing l o := by
  induction ms generalizing g with
  | nil => rfl
  | cons m ms ih =>
    rw [List.foldl_cons, ih fun m' hm' => h m' (List.mem_cons_of_mem _ hm'),
      listing_enlist_of_ne (h m (List.mem_cons_self ..))]

theorem listing_enlist_of_mem {id : EntityId kind} {l : Link owner kind} {o : EntityId owner}
    {ms : List (Membership kind)} (hms : ms.Nodup) (hm : (⟨l, o⟩ : Membership kind) ∈ ms)
    (g : Graph) :
    (ms.foldl (enlist · id) g).listing l o = (g.listing l o).map (·.push id) := by
  induction ms generalizing g with
  | nil => cases hm
  | cons m ms ih =>
    obtain ⟨hnot, hms⟩ := List.nodup_cons.1 hms
    rw [List.foldl_cons]
    by_cases h : (⟨l, o⟩ : Membership kind) = m
    · subst h
      rw [listing_enlist_of_notMem, listing_enlist_self]
      rintro m' hm' h
      cases h
      exact hnot hm'
    · rw [ih hms ((List.mem_cons.1 hm).resolve_left h), listing_enlist_of_ne]
      intro h'
      cases h'
      exact h rfl

/-! ### A new entity -/

variable {request : Request kind} {storage : Option TextsId}

/-- A new entity names the owners that were asked for. -/
theorem ownerOf_data {handle : String → Except String Sym} {d : Data kind}
    (h : request.data handle = .ok d) (l : Link owner kind) : l.ownerOf d = l.askedOf request := by
  cases request with
  | decl _ assignment =>
    cases l
    rcases assignment with _ | t
    · cases h; rfl
    · obtain ⟨s, -, rfl⟩ := map_eq_ok.1 h; rfl
  | param | code | pin | adjustment =>
    cases l
    obtain ⟨s, -, rfl⟩ := map_eq_ok.1 h; rfl
  | _ => cases l <;> cases h <;> rfl

/-- The lists of a new entity are empty. -/
theorem members_data {handle : String → Except String Sym} {d : Data kind}
    (h : request.data handle = .ok d) {l : Link kind member} {xs : Array (EntityId member)}
    (hxs : l.members d = some xs) : xs = #[] := by
  cases request with
  | module name ilm resource =>
    cases h
    cases resource <;> cases l <;> simp_all [Link.members]
  | _ => cases l <;> cases h <;> cases hxs <;> rfl

/-- An owner that a granted request names is there and has the list. -/
theorem Grant.exists_listing (gr : g.Grant request storage) {l : Link owner kind}
    {o : EntityId owner} (h : l.askedOf request = some o) : ∃ xs, g.listing l o = some xs := by
  have hp := gr.plan_eq
  cases request with
  | module => cases l
  | inst name target parent =>
    simp only [Graph.plan, bind_eq_ok] at hp
    obtain ⟨t, ht, p, hp, -⟩ := hp
    cases l with
    | uses =>
      cases h
      obtain ⟨m, hm, -⟩ := Option.bind_eq_some_iff.1 (targetId_eq_ok.1 ht)
      exact ⟨_, listing_of_entity? hm⟩
    | contents =>
      obtain rfl : parent = some o := h
      obtain ⟨m, xs, hm, hl, -⟩ := placeOf_eq_ok.1 hp
      exact ⟨xs, by rw [listing_of_entity? hm, hl]⟩
  | decl | code | regfile =>
    cases l
    cases h
    simp only [Graph.plan, bind_eq_ok] at hp
    obtain ⟨⟨m, xs⟩, hm, -⟩ := hp
    obtain ⟨hm, hl⟩ := needList_eq_ok.1 hm
    exact ⟨xs, by rw [listing_of_entity? hm, hl]⟩
  | port | param | pin | adjustment | entry | register =>
    cases l
    cases h
    simp only [Graph.plan, bind_eq_ok] at hp
    obtain ⟨_, hp, -⟩ := hp
    obtain ⟨e, he, -⟩ := parentObject_eq_ok.1 hp
    exact ⟨_, listing_of_entity? he⟩

/-- The lists that a new entity asked for are those that its data name. -/
theorem Grant.mem_links (gr : g.Grant request storage) {l : Link owner kind} {o : EntityId owner} :
    (⟨l, o⟩ : Membership kind) ∈ Data.links gr.draft.data ↔ l.askedOf request = some o := by
  rw [Data.mem_links, ownerOf_data gr.drafts.data]

theorem Grant.issued_of_asked (gr : g.Grant request storage) {l : Link owner kind}
    {o : EntityId owner} (h : l.askedOf request = some o) : g.Issued ⟨owner, o⟩ := by
  obtain ⟨xs, hxs⟩ := gr.exists_listing h
  obtain ⟨e, he, -⟩ := Option.bind_eq_some_iff.1 hxs
  exact issued_of_entity? he

end Graph

/-- The new entity as a member of a list, if it was to be in it. -/
def Birth.child? (b : Birth) {owner member : Kind} (l : Link owner member) (o : EntityId owner) :
    Option (EntityId member) :=
  if h : b.kind = member then
    if l.askedOf (h ▸ b.request) = some o then some (h ▸ b.id) else none
  else none

namespace Graph

variable {g : Graph} {kind owner member : Kind} {request : Request kind} {storage : Option TextsId}

theorem child?_birth {l : Link owner kind} {o : EntityId owner} :
    (g.birth request storage).child? l o =
      if l.askedOf request = some o then some (g.tables.get kind).nextId else none :=
  dif_pos (rfl : (g.birth request storage).kind = kind)

theorem child?_birth_of_ne {l : Link owner member} {o : EntityId owner} (h : member ≠ kind) :
    (g.birth request storage).child? l o = none :=
  dif_neg fun hk : (g.birth request storage).kind = member => h hk.symm

/-- Nobody's lists are changed by an entity that is not listed yet. -/
theorem listing_alloc {g' : Graph} {l : Link owner member} {o : EntityId owner} {e : Entity kind}
    (ho : g.Issued ⟨owner, o⟩) (hg' : g'.tables = g.tables.set ((g.tables.get kind).alloc e).2) :
    g'.listing l o = g.listing l o := by
  rw [listing, listing, entity?, entity?, hg']
  by_cases hk : owner = kind
  · subst hk
    rw [Tables.get_set_self, Slots.get?_alloc, if_neg (Slots.ne_nextId ho)]
  · rw [Tables.get_set_of_ne _ _ hk]

/-- A new entity is added at the end of the lists that it asked for, and nowhere else. -/
theorem Grant.listing_install (gr : g.Grant request storage) {l : Link owner member}
    {o : EntityId owner} (ho : g.Issued ⟨owner, o⟩) : (g.install gr.draft).2.listing l o =
      ((g.birth request storage).child? l o).elim (g.listing l o)
        fun i => (g.listing l o).map (·.push i) := by
  have hold : ∀ (g' : Graph) (e : Entity kind),
      g'.tables = g.tables.set ((g.tables.get kind).alloc e).2 → g'.listing l o = g.listing l o :=
    fun _ _ hg' => listing_alloc ho hg'
  rw [install_eq]
  by_cases hk : member = kind
  · subst hk
    rw [child?_birth]
    split
    · next h =>
      rw [listing_enlist_of_mem (Data.nodup_links _) (gr.mem_links.2 h), hold _ _ rfl]; rfl
    · next h =>
      rw [listing_enlist_of_notMem, hold _ _ rfl]; rfl
      intro m hm h'
      cases h'
      exact h (gr.mem_links.1 hm)
  · rw [child?_birth_of_ne hk, listing_enlist_of_notMem, hold _ _ rfl]; rfl
    intro m _ h'
    cases h'
    exact hk rfl

/-- Nobody is listed with a new entity yet. -/
theorem Grant.listing_install_self (gr : g.Grant request storage) {l : Link kind member}
    {xs : Array (EntityId member)}
    (hxs : (g.install gr.draft).2.listing l (g.tables.get kind).nextId = some xs) : xs = #[] := by
  rw [install_eq, listing_enlist_of_notMem, listing, entity?, Tables.get_set_self, Slots.get?_alloc,
    if_pos rfl] at hxs
  · exact members_data gr.drafts.data hxs
  · intro m hm h
    cases h
    exact Slots.not_issued_nextId _ (gr.issued_of_asked (gr.mem_links.1 hm))

end Graph

end DesignGraph
