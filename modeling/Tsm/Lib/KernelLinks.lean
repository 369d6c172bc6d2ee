import Mathlib.Logic.Function.Basic
import Tsm.Lib.Accesses
import Tsm.Lib.KernelList

/-! Kernel lists as the pointers they are made of. Entries that can be followed from
the head and back, either way, are a ring; on a ring `list_add` and `list_del` act as
they do on the sequence of its entries. -/

namespace KernelLinks
open KernelList Function Accesses

/-- Where a pointer of a list node points to. -/
inductive Link (α : Type*) where
  | head
  | entry (item : α)
  /-- What `list_del` leaves in the entry that it deletes. -/
  | poison
  deriving DecidableEq, Repr

variable {α : Type*}

def Link.item : Link α → Option α
  | .entry item => some item
  | .head | .poison => none

structure Links (α : Type*) where
  next : Link α → Link α
  prev : Link α → Link α

namespace Links
variable [DecidableEq α]

/-- Head and entries as `INIT_LIST_HEAD` leaves them, each linked to itself. -/
def init : Links α := ⟨id, id⟩

/-- The stores of `list_add`, given the `head->next` that it has loaded. -/
def insert (new : α) (next : Link α) (links : Links α) : Links α where
  next := update (update links.next (.entry new) next) .head (.entry new)
  prev := update (update links.prev next (.entry new)) (.entry new) .head

/-- `list_del`. Whoever follows a poisoned pointer is killed. -/
def delete (item : α) (links : Links α) : Option (Links α) :=
  let next := links.next (.entry item)
  let prev := links.prev (.entry item)
  if next = .poison ∨ prev = .poison then none
  else
    some {
      next := update (update links.next prev next) (.entry item) .poison
      prev := update (update links.prev next prev) (.entry item) .poison }

end Links

/-! One access after the other. -/

/-- Where `list_add` or `list_del` stands: the next access, and what was loaded for it. -/
inductive ListAccess (α : Type*) where
  -- list_add loads head->next and stores four times
  | add (new : α)
  | addNextPrev (new : α) (next : Link α)
  | addNext (new : α) (next : Link α)
  | addPrev (new : α)
  | addHeadNext (new : α)
  -- list_del loads entry->prev and entry->next, links these to each other and poisons the entry
  | del (item : α)
  | delNext (item : α) (prev : Link α)
  | delNextPrev (item : α) (prev next : Link α)
  | delPrevNext (item : α) (prev next : Link α)
  | poisonNext (item : α)
  | poisonPrev (item : α)
  deriving DecidableEq, Repr

section Accesses
variable [DecidableEq α]

def Links.setNext (links : Links α) (node target : Link α) : Links α :=
  { links with next := update links.next node target }

def Links.setPrev (links : Links α) (node target : Link α) : Links α :=
  { links with prev := update links.prev node target }

/-- Whoever stores through a poisoned pointer is killed. -/
def ListAccess.next : ListAccess α → Links α → Option (Links α × Option (ListAccess α))
  | .add new, links => some (links, some (.addNextPrev new (links.next .head)))
  | .addNextPrev new next, links =>
    if next = .poison then none else some (links.setPrev next (.entry new), some (.addNext new next))
  | .addNext new next, links => some (links.setNext (.entry new) next, some (.addPrev new))
  | .addPrev new, links => some (links.setPrev (.entry new) .head, some (.addHeadNext new))
  | .addHeadNext new, links => some (links.setNext .head (.entry new), none)
  | .del item, links => some (links, some (.delNext item (links.prev (.entry item))))
  | .delNext item prev, links => some (links, some (.delNextPrev item prev (links.next (.entry item))))
  | .delNextPrev item prev next, links =>
    if next = .poison then none else some (links.setPrev next prev, some (.delPrevNext item prev next))
  | .delPrevNext item prev next, links =>
    if prev = .poison then none else some (links.setNext prev next, some (.poisonNext item))
  | .poisonNext item, links => some (links.setNext (.entry item) .poison, some (.poisonPrev item))
  | .poisonPrev item, links => some (links.setPrev (.entry item) .poison, none)

/-- The pointers after the accesses of a `list_add` so far. -/
def ListAccess.Adding (links : Links α) (new : α) (now : Links α) : ListAccess α → Prop
  | .add item => item = new ∧ now = links
  | .addNextPrev item next => item = new ∧ next = links.next .head ∧ now = links
  | .addNext item next => item = new ∧ next = links.next .head ∧ now = links.setPrev next (.entry new)
  | .addPrev item => item = new ∧
    now = (links.setPrev (links.next .head) (.entry new)).setNext (.entry new) (links.next .head)
  | .addHeadNext item => item = new ∧
    now = ((links.setPrev (links.next .head) (.entry new)).setNext (.entry new) (links.next .head)).setPrev (.entry new) .head
  | _ => False

/-- The pointers after the accesses of a `list_del` so far. -/
def ListAccess.Deleting (links : Links α) (gone : α) (now : Links α) : ListAccess α → Prop
  | .del item => item = gone ∧ now = links
  | .delNext item prev => item = gone ∧ prev = links.prev (.entry gone) ∧ now = links
  | .delNextPrev item prev next => item = gone ∧ prev = links.prev (.entry gone) ∧ next = links.next (.entry gone) ∧ now = links
  | .delPrevNext item prev next => item = gone ∧ prev = links.prev (.entry gone) ∧ next = links.next (.entry gone) ∧
    next ≠ .poison ∧ now = links.setPrev next prev
  | .poisonNext item => item = gone ∧ links.next (.entry gone) ≠ .poison ∧ links.prev (.entry gone) ≠ .poison ∧
    now = (links.setPrev (links.next (.entry gone)) (links.prev (.entry gone))).setNext
      (links.prev (.entry gone)) (links.next (.entry gone))
  | .poisonPrev item => item = gone ∧ links.next (.entry gone) ≠ .poison ∧ links.prev (.entry gone) ≠ .poison ∧
    now = ((links.setPrev (links.next (.entry gone)) (links.prev (.entry gone))).setNext
      (links.prev (.entry gone)) (links.next (.entry gone))).setNext (.entry gone) .poison
  | _ => False

variable {links now : Links α} {item : α} {place : ListAccess α}

theorem adding_of_partly (partly : Partly ListAccess.next (.add item) links place now) :
    place.Adding links item now := by
  induction partly with
  | begins => exact ⟨rfl, rfl⟩
  | @access place now place' now' earlier made ih =>
    cases place with
    | add new =>
      cases made
      obtain ⟨rfl, rfl⟩ := ih
      exact ⟨rfl, rfl, rfl⟩
    | addNextPrev new next =>
      simp only [ListAccess.next] at made
      split at made
      · cases made
      · cases made
        obtain ⟨rfl, rfl, rfl⟩ := ih
        exact ⟨rfl, rfl, rfl⟩
    | addNext new next =>
      cases made
      obtain ⟨rfl, rfl, rfl⟩ := ih
      exact ⟨rfl, rfl⟩
    | addPrev new =>
      cases made
      obtain ⟨rfl, rfl⟩ := ih
      exact ⟨rfl, rfl⟩
    | addHeadNext new => cases made
    | _ => exact ih.elim

theorem deleting_of_partly (partly : Partly ListAccess.next (.del item) links place now) :
    place.Deleting links item now := by
  induction partly with
  | begins => exact ⟨rfl, rfl⟩
  | @access place now place' now' earlier made ih =>
    cases place with
    | del gone =>
      cases made
      obtain ⟨rfl, rfl⟩ := ih
      exact ⟨rfl, rfl, rfl⟩
    | delNext gone prev =>
      cases made
      obtain ⟨rfl, rfl, rfl⟩ := ih
      exact ⟨rfl, rfl, rfl, rfl⟩
    | delNextPrev gone prev next =>
      simp only [ListAccess.next] at made
      split at made
      · cases made
      next linked =>
        cases made
        obtain ⟨rfl, rfl, rfl, rfl⟩ := ih
        exact ⟨rfl, rfl, rfl, linked, rfl⟩
    | delPrevNext gone prev next =>
      simp only [ListAccess.next] at made
      split at made
      · cases made
      next linked =>
        cases made
        obtain ⟨rfl, rfl, rfl, forth, rfl⟩ := ih
        exact ⟨rfl, forth, linked, rfl⟩
    | poisonNext gone =>
      cases made
      obtain ⟨rfl, forth, back, rfl⟩ := ih
      exact ⟨rfl, forth, back, rfl⟩
    | poisonPrev gone => cases made
    | _ => exact ih.elim

/-- All accesses of a `list_add` insert the entry. -/
theorem insert_of_partly {links' : Links α}
    (partly : Partly ListAccess.next (.add item) links place now)
    (made : place.next now = some (links', none)) : links' = links.insert item (links.next .head) := by
  have adding := adding_of_partly partly
  cases place with
  | addHeadNext new =>
    cases made
    obtain ⟨rfl, rfl⟩ := adding
    rfl
  | add new | addNext new next | addPrev new => cases made
  | addNextPrev new next =>
    simp only [ListAccess.next] at made
    split at made <;> cases made
  | _ => exact adding.elim

/-- All accesses of a `list_del` delete the entry. -/
theorem delete_of_partly {links' : Links α}
    (partly : Partly ListAccess.next (.del item) links place now)
    (made : place.next now = some (links', none)) : links.delete item = some links' := by
  have deleting := deleting_of_partly partly
  cases place with
  | poisonPrev gone =>
    cases made
    obtain ⟨rfl, forth, back, rfl⟩ := deleting
    simp [Links.delete, forth, back, Links.setNext, Links.setPrev]
  | del gone | delNext gone prev | poisonNext gone => cases made
  | delNextPrev gone prev next | delPrevNext gone prev next =>
    simp only [ListAccess.next] at made
    split at made <;> cases made
  | _ => exact deleting.elim

end Accesses

/-- Linked both ways, from one node over the entries to another. -/
def Path (links : Links α) : Link α → List α → Link α → Prop
  | first, [], last => links.next first = last ∧ links.prev last = first
  | first, item :: rest, last =>
    links.next first = .entry item ∧ links.prev (.entry item) = first ∧ Path links (.entry item) rest last

/-- The entries of a list, and those that have been deleted from it. -/
structure Ring (links : Links α) (list gone : List α) : Prop where
  path : Path links .head list .head
  distinct : list.Nodup
  poisoned : ∀ item ∉ list, item ∈ gone → links.next (.entry item) = .poison ∧ links.prev (.entry item) = .poison
  alone : ∀ item ∉ list, item ∉ gone → links.next (.entry item) = .entry item ∧ links.prev (.entry item) = .entry item

variable {links links' : Links α} {first last : Link α} {list gone : List α} {item : α}

theorem path_append {front rest : List α} :
    Path links first (front ++ item :: rest) last ↔ Path links first front (.entry item) ∧ Path links (.entry item) rest last := by
  induction front generalizing first with
  | nil => simp [Path, and_assoc]
  | cons other front ih => simp [Path, ih, and_assoc]

/-- A path depends on the pointers along it only. -/
theorem Path.frame (path : Path links first list last)
    (next : ∀ node, node = first ∨ (∃ item ∈ list, node = .entry item) → links'.next node = links.next node)
    (prev : ∀ node, node = last ∨ (∃ item ∈ list, node = .entry item) → links'.prev node = links.prev node) :
    Path links' first list last := by
  induction list generalizing first with
  | nil => exact ⟨(next first (.inl rfl)).trans path.1, (prev last (.inl rfl)).trans path.2⟩
  | cons item rest ih =>
    refine ⟨(next first (.inl rfl)).trans path.1, (prev _ (.inr ⟨item, by simp, rfl⟩)).trans path.2.1, ih path.2.2 ?_ ?_⟩
    · rintro node (rfl | ⟨other, member, rfl⟩)
      · exact next _ (.inr ⟨item, by simp, rfl⟩)
      · exact next _ (.inr ⟨other, by simp [member], rfl⟩)
    · rintro node (rfl | ⟨other, member, rfl⟩)
      · exact prev _ (.inl rfl)
      · exact prev _ (.inr ⟨other, by simp [member], rfl⟩)

/-- The last entry of a path is the one before its end. -/
theorem Path.prev_last (path : Path links .head list last) : (links.prev last).item = list.getLast? := by
  rcases List.eq_nil_or_concat list with rfl | ⟨front, item, rfl⟩
  · rw [path.2]
    rfl
  · rw [List.concat_eq_append] at path ⊢
    rw [(path_append.mp path).2.2]
    simp [Link.item]

theorem Path.next_first (path : Path links first list last) :
    links.next first = last ∨ ∃ item ∈ list, links.next first = .entry item := by
  cases list with
  | nil => exact .inl path.1
  | cons item rest => exact .inr ⟨item, by simp, path.1⟩

theorem Path.prev_first (path : Path links first list last) :
    links.prev last = first ∨ ∃ item ∈ list, links.prev last = .entry item := by
  rcases List.eq_nil_or_concat list with rfl | ⟨front, item, rfl⟩
  · exact .inl path.2
  · rw [List.concat_eq_append] at path ⊢
    exact .inr ⟨item, by simp, (path_append.mp path).2.2⟩

/-- The rest of a path, once its first pointers lead to and from another node. -/
theorem Path.redirect {start : Link α} (path : Path links first list last) (distinct : list.Nodup)
    (apart : ∀ item ∈ list, last ≠ .entry item)
    (forth : links'.next start = links.next first) (back : links'.prev (links.next first) = start)
    (next : ∀ item ∈ list, links'.next (.entry item) = links.next (.entry item))
    (prev : ∀ node, node ≠ links.next first → node = last ∨ (∃ item ∈ list, node = .entry item) →
      links'.prev node = links.prev node) : Path links' start list last := by
  cases list with
  | nil => exact ⟨forth.trans path.1, path.1 ▸ back⟩
  | cons item rest =>
    rw [path.1] at prev
    refine ⟨forth.trans path.1, path.1 ▸ back, path.2.2.frame ?_ ?_⟩
    · rintro node (rfl | ⟨other, member, rfl⟩)
      · exact next item (by simp)
      · exact next other (by simp [member])
    · rintro node (rfl | ⟨other, member, rfl⟩)
      · exact prev _ (apart item (by simp)) (.inl rfl)
      · refine prev _ ?_ (.inr ⟨other, by simp [member], rfl⟩)
        simp only [ne_eq, Link.entry.injEq]
        rintro rfl
        exact (List.nodup_cons.mp distinct).1 member

theorem ring_init : Ring (.init : Links α) [] [] :=
  ⟨⟨rfl, rfl⟩, List.nodup_nil, by simp, fun _ _ _ => ⟨rfl, rfl⟩⟩

section Ring
variable [DecidableEq α]

theorem Ring.insert (ring : Ring links list gone) (fresh : item ∉ list) :
    Ring (links.insert item (links.next .head)) (listAdd item list) gone := by
  have before := ring.path.next_first
  have aside : ∀ other, other ∉ item :: list → Link.entry other ≠ links.next .head ∧ other ≠ item := by
    intro other absent
    rw [List.mem_cons, not_or] at absent
    refine ⟨fun same => ?_, absent.1⟩
    rcases before with head | ⟨first, member, entry⟩
    · cases same.trans head
    · cases same.trans entry
      exact absent.2 member
  have other : ∀ {node : α}, node ∈ list → node ≠ item := fun member same => fresh (same ▸ member)
  have new : links.next .head ≠ .entry item := by
    rcases before with head | ⟨first, member, entry⟩
    · simp [head]
    · simpa [entry] using other member
  refine ⟨⟨?_, ?_, ?_⟩, List.nodup_cons.mpr ⟨fresh, ring.distinct⟩, fun node absent known => ?_, fun node absent unknown => ?_⟩
  · simp [Links.insert]
  · simp [Links.insert]
  · refine ring.path.redirect ring.distinct (by simp) ?_ ?_ ?_ ?_
    · simp [Links.insert]
    · simp [Links.insert, new]
    · intro node member
      simp [Links.insert, other member]
    · rintro node apart (rfl | ⟨node, member, rfl⟩)
      · simp [Links.insert, apart]
      · simp [Links.insert, apart, other member]
  · obtain ⟨apart, unlike⟩ := aside node absent
    simpa [Links.insert, apart, unlike] using ring.poisoned node (fun member => absent (List.mem_cons_of_mem _ member)) known
  · obtain ⟨apart, unlike⟩ := aside node absent
    simpa [Links.insert, apart, unlike] using ring.alone node (fun member => absent (List.mem_cons_of_mem _ member)) unknown

theorem delete_eq_some (deleted : links.delete item = some links') :
    links.next (.entry item) ≠ .poison ∧
      (∀ node, links'.next node = if node = .entry item then .poison
        else if node = links.prev (.entry item) then links.next (.entry item) else links.next node) ∧
      ∀ node, links'.prev node = if node = .entry item then .poison
        else if node = links.next (.entry item) then links.prev (.entry item) else links.prev node := by
  simp only [Links.delete] at deleted
  split at deleted
  · cases deleted
  next linked =>
    cases deleted
    exact ⟨fun poison => linked (.inl poison), fun node => by simp [update_apply], fun node => by simp [update_apply]⟩

/-- The neighbours of a deleted entry are linked to each other. -/
theorem Path.delete {front rest : List α} (before : Path links .head front (.entry item))
    (after : Path links (.entry item) rest .head) (distinct : (front ++ item :: rest).Nodup)
    (deleted : links.delete item = some links') : Path links' .head (front ++ rest) .head := by
  obtain ⟨_, next, prev⟩ := delete_eq_some deleted
  obtain ⟨earlierDistinct, later, apart⟩ := List.nodup_append.mp distinct
  obtain ⟨notAfter, later⟩ := List.nodup_cons.mp later
  have notBefore : item ∉ front := fun member => apart item member item (by simp) rfl
  have target := after.next_first
  have beyond : links.next (.entry item) ≠ .entry item := by
    rcases target with head | ⟨other, member, entry⟩
    · simp [head]
    · have unlike : other ≠ item := fun same => notAfter (same ▸ member)
      simp [entry, unlike]
  have redirected : ∀ {start}, links.prev (.entry item) = start → start ≠ .entry item →
      (∀ other ∈ rest, start ≠ .entry other) → Path links' start rest .head := by
    intro start same unlike outside
    refine after.redirect later (by simp) ?_ ?_ ?_ ?_
    · simp [next, same, unlike]
    · simp [prev, same, beyond]
    · intro other member
      have differs : other ≠ item := fun equal => notAfter (equal ▸ member)
      simp [next, same, differs, (outside other member).symm]
    · rintro node skipped (rfl | ⟨other, member, rfl⟩)
      · simp [prev, skipped]
      · have differs : other ≠ item := fun equal => notAfter (equal ▸ member)
        simp [prev, skipped, differs]
  rcases List.eq_nil_or_concat front with rfl | ⟨earlier, last, rfl⟩
  · exact redirected before.2 (by simp) (by simp)
  · rw [List.concat_eq_append] at before notBefore apart earlierDistinct ⊢
    obtain ⟨start, single⟩ := path_append.mp before
    have unlike : last ≠ item := fun same => notBefore (by simp [same])
    have kept : ∀ other ∈ earlier, other ≠ item ∧ other ≠ last := by
      intro other member
      refine ⟨fun same => notBefore (by simp [← same, member]), ?_⟩
      rintro rfl
      exact (List.nodup_append.mp earlierDistinct).2.2 other member other (by simp) rfl
    have behind : ∀ other ∈ earlier ++ [last], Link.entry other ≠ links.next (.entry item) := by
      intro other member same
      rcases target with head | ⟨beyond, follows, entry⟩
      · cases same.trans head
      · cases same.trans entry
        exact apart other member other (List.mem_cons_of_mem _ follows) rfl
    rw [List.append_assoc, List.singleton_append, path_append]
    refine ⟨start.frame ?_ ?_, redirected single.2 (by simpa using unlike) ?_⟩
    · rintro node (rfl | ⟨other, member, rfl⟩)
      · simp [next, single.2]
      · simp [next, single.2, kept other member]
    · rintro node (rfl | ⟨other, member, rfl⟩)
      · simp [prev, unlike, behind last (by simp)]
      · simp [prev, kept other member, behind other (by simp [member])]
    · rintro other member same
      cases same
      exact apart last (by simp) last (List.mem_cons_of_mem _ member) rfl

/-- `list_del` of a linked entry, or of one that was never linked. -/
theorem Ring.delete (ring : Ring links list gone) (deleted : links.delete item = some links') :
    Ring links' (listDel item list) (gone ++ [item]) := by
  obtain ⟨linked, next, prev⟩ := delete_eq_some deleted
  have neighbours : (links.next (.entry item) = .head ∨ ∃ other ∈ item :: list, links.next (.entry item) = .entry other) ∧
      (links.prev (.entry item) = .head ∨ ∃ other ∈ item :: list, links.prev (.entry item) = .entry other) := by
    by_cases member : item ∈ list
    · obtain ⟨front, rest, rfl⟩ := List.append_of_mem member
      obtain ⟨before, after⟩ := path_append.mp ring.path
      refine ⟨after.next_first.imp_right ?_, before.prev_first.imp_right ?_⟩
      · exact fun ⟨other, member, entry⟩ => ⟨other, by simp [member], entry⟩
      · exact fun ⟨other, member, entry⟩ => ⟨other, by simp [member], entry⟩
    · have known : item ∉ gone := fun known => linked (ring.poisoned item member known).1
      obtain ⟨forth, back⟩ := ring.alone item member known
      exact ⟨.inr ⟨item, by simp, forth⟩, .inr ⟨item, by simp, back⟩⟩
  have path : Path links' .head (listDel item list) .head := by
    by_cases member : item ∈ list
    · obtain ⟨front, rest, rfl⟩ := List.append_of_mem member
      obtain ⟨before, after⟩ := path_append.mp ring.path
      have notBefore : item ∉ front := fun member =>
        (List.nodup_append.mp ring.distinct).2.2 item member item (by simp) rfl
      rw [listDel, List.erase_append_right _ notBefore, List.erase_cons_head]
      exact before.delete after ring.distinct deleted
    · have known : item ∉ gone := fun known => linked (ring.poisoned item member known).1
      obtain ⟨forth, back⟩ := ring.alone item member known
      have other : ∀ {node : α}, node ∈ list → node ≠ item := fun inside same => member (same ▸ inside)
      rw [listDel, List.erase_of_not_mem member]
      refine ring.path.frame ?_ ?_
      · rintro node (rfl | ⟨node, inside, rfl⟩)
        · simp [next, back]
        · simp [next, back, other inside]
      · rintro node (rfl | ⟨node, inside, rfl⟩)
        · simp [prev, forth]
        · simp [prev, forth, other inside]
  have off : ∀ node, node ≠ item → node ∉ list →
      links'.next (.entry node) = links.next (.entry node) ∧ links'.prev (.entry node) = links.prev (.entry node) := by
    intro node unlike absent
    have aside : ∀ {link : Link α}, (link = .head ∨ ∃ other ∈ item :: list, link = .entry other) → .entry node ≠ link := by
      rintro link (rfl | ⟨other, member, rfl⟩) same
      · cases same
      · cases same
        exact (List.mem_cons.mp member).elim unlike absent
    simp [next, prev, unlike, aside neighbours.1, aside neighbours.2]
  refine ⟨path, ring.distinct.erase item, fun node absent known => ?_, fun node absent unknown => ?_⟩
  · by_cases same : node = item
    · simp [next, prev, same]
    · have outside : node ∉ list := fun member => absent ((List.mem_erase_of_ne same).mpr member)
      rw [(off node same outside).1, (off node same outside).2]
      exact ring.poisoned node outside (by simpa [same] using known)
  · rw [List.mem_append, not_or, List.mem_singleton] at unknown
    have outside : node ∉ list := fun member => absent ((List.mem_erase_of_ne unknown.2).mpr member)
    rw [(off node unknown.2 outside).1, (off node unknown.2 outside).2]
    exact ring.alone node outside unknown.1

/-- An entry that was linked once, and can be deleted, still is. -/
theorem Ring.mem_of_delete (ring : Ring links list gone) (deleted : links.delete item = some links')
    (known : item ∈ list ∨ item ∈ gone) : item ∈ list := by
  by_contra absent
  exact (delete_eq_some deleted).1 (ring.poisoned item absent (known.resolve_left absent)).1

theorem Ring.prev_entry (ring : Ring links list gone) (known : item ∈ list ∨ item ∈ gone) :
    (links.prev (.entry item)).item = listPrev item list := by
  by_cases member : item ∈ list
  · obtain ⟨front, rest, rfl⟩ := List.append_of_mem member
    obtain ⟨_, later, apart⟩ := List.nodup_append.mp ring.distinct
    have before : item ∉ front := fun member => apart item member item (by simp) rfl
    rw [listPrev_append (List.nodup_cons.mp later).1 before]
    exact (path_append.mp ring.path).1.prev_last
  · rw [(ring.poisoned item member (known.resolve_left member)).2, listPrev_absent member]
    rfl

end Ring

theorem Ring.next_head (ring : Ring links list gone) : links.next .head = .head ↔ list = [] := by
  cases list with
  | nil => exact iff_of_true ring.path.1 rfl
  | cons item rest => simp [ring.path.1]

end KernelLinks
