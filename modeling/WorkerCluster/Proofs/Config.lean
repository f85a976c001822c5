import WorkerCluster.Config
import WorkerCluster.Proofs.Message

/-!
# What is read of configurations

* `Field.Gives` holds for the values that can be read into a field: those that its codec reads, and
  the one that stands for a missing field. `Fields.decode_gives` says that a record holds nothing
  else.
* `Config.portable_of_parse` takes from that that the listeners of a configuration that has been
  read have hosts.
-/

namespace WorkerCluster

open Json

namespace Json

variable {α : Type} {αs : List Type}

/-- The value can be read into the field. -/
def Field.Gives (f : Field α) (a : α) : Prop :=
  (∃ r s, f.codec.decode r s = .ok a) ∨ f.absence = .inObject a ∨ f.absence = .always a

/-- What is read into a field that must be there has been read by its codec. -/
theorem Field.Gives.of_required {name : String} {c : Codec α} {a : α}
    (h : (Field.required name c).Gives a) : ∃ r s, c.decode r s = .ok a := by
  rcases h with read | missing | missing
  · exact read
  · cases missing
  · cases missing

theorem Field.Gives.of_fromObject {f : Field α} {a : α} (h : f.fromObject = .ok a) : f.Gives a := by
  unfold Field.fromObject at h
  split at h
  · cases h
  · next missing => exact .inr (.inl (Except.ok.inj h ▸ missing))
  · next missing => exact .inr (.inr (Except.ok.inj h ▸ missing))

theorem Field.Gives.of_fromArray {f : Field α} {a : α} (h : f.fromArray = .ok a) : f.Gives a := by
  unfold Field.fromArray at h
  split at h
  · cases h
  · cases h
  · next missing => exact .inr (.inr (Except.ok.inj h ▸ missing))

namespace Fields

/-- The values can be read into the fields. -/
def Gives : {αs : List Type} → Fields αs → Values αs → Prop
  | _, .nil, _ => True
  | _, .cons f rest, (a, values) => f.Gives a ∧ rest.Gives values

/-- What has been read so far can be read into the fields. -/
def Given : {αs : List Type} → Fields αs → Slots αs → Prop
  | _, .nil, _ => True
  | _, .cons f rest, (o, slots) => (∀ a ∈ o, f.Gives a) ∧ rest.Given slots

theorem given_unmet : {αs : List Type} → (fs : Fields αs) → fs.Given fs.unmet
  | _, .nil => trivial
  | _, .cons _ rest => ⟨fun _ h => (Option.not_mem_none _ h).elim, given_unmet rest⟩

theorem accept_given {r : Reading} {name : String} {s : Source} : {αs : List Type} →
    (fs : Fields αs) → {slots slots' : Slots αs} → fs.Given slots →
    fs.accept r name s slots = some (.ok slots') → fs.Given slots'
  | _, .nil, _, _, _, h => nomatch h
  | _, .cons f rest, (o, slots), _, given, h => by
    by_cases same : f.name = name
    · cases o with
      | some b => exact nomatch ((if_pos same).symm.trans h :)
      | none =>
        obtain ⟨a, read, rfl⟩ := map_eq_ok (Option.some.inj ((if_pos same).symm.trans h))
        exact ⟨fun b hb => Option.mem_some_iff.1 hb ▸ .inl ⟨r, s, read⟩, given.2⟩
    · obtain ⟨e, other, he⟩ := Option.map_eq_some_iff.1 ((accept_of_ne same ..).symm.trans h)
      obtain ⟨slots', rfl, rfl⟩ := map_eq_ok he
      exact ⟨given.1, accept_given rest given.2 other⟩

theorem readEntries_given {fs : Fields αs} {r : Reading} {entries : List (Atom × Source)}
    {slots slots' : Slots αs} (given : fs.Given slots)
    (h : fs.readEntries r entries slots = .ok slots') : fs.Given slots' := by
  induction entries generalizing slots with
  | nil => exact Except.ok.inj h ▸ given
  | cons e entries ih =>
    obtain ⟨name, s⟩ := e
    rw [readEntries] at h
    obtain ⟨n, -, h⟩ := bind_eq_ok h
    split at h
    · next e accepted =>
      obtain ⟨next, rfl, h⟩ := bind_eq_ok h
      exact ih (accept_given fs given accepted) h
    · obtain ⟨-, -, h⟩ := bind_eq_ok h
      exact ih given h

theorem finish_gives : {αs : List Type} → (fs : Fields αs) → {slots : Slots αs} →
    {values : Values αs} → fs.Given slots → fs.finish slots = .ok values → fs.Gives values
  | _, .nil, _, _, _, _ => trivial
  | _, .cons f rest, (o, slots), _, given, h => by
    cases o with
    | none =>
      obtain ⟨a, missing, h⟩ := bind_eq_ok h
      obtain ⟨values, others, h⟩ := bind_eq_ok h
      obtain rfl := Except.ok.inj h
      exact ⟨.of_fromObject missing, finish_gives rest given.2 others⟩
    | some a =>
      obtain ⟨values, others, rfl⟩ := map_eq_ok ((finish_slot f rest a slots).symm.trans h)
      exact ⟨given.1 a rfl, finish_gives rest given.2 others⟩

theorem readItems_gives {r : Reading} {ending : Option Fault} : {αs : List Type} →
    (fs : Fields αs) → {items : List Source} → {values : Values αs} →
    fs.readItems r ending items = .ok values → fs.Gives values
  | _, .nil, _, _, _ => trivial
  | _, .cons f rest, [], _, h => by
    rw [readItems] at h
    obtain ⟨-, -, h⟩ := bind_eq_ok h
    obtain ⟨a, first, h⟩ := bind_eq_ok h
    obtain ⟨values, others, h⟩ := bind_eq_ok h
    obtain rfl := Except.ok.inj h
    exact ⟨.of_fromArray first, readItems_gives rest others⟩
  | _, .cons f rest, s :: items, _, h => by
    rw [readItems] at h
    obtain ⟨a, first, h⟩ := bind_eq_ok h
    obtain ⟨values, others, h⟩ := bind_eq_ok h
    obtain rfl := Except.ok.inj h
    exact ⟨.inl ⟨r, s, first⟩, readItems_gives rest others⟩

/-- **A record that has been read holds only what can be read into its fields.** -/
theorem decode_gives {fs : Fields αs} {r : Reading} {s : Source} {values : Values αs}
    (h : fs.decode r s = .ok values) : fs.Gives values := by
  unfold decode at h
  split at h
  · obtain ⟨r, -, h⟩ := bind_eq_ok h
    obtain ⟨slots, read, h⟩ := bind_eq_ok h
    obtain ⟨-, -, h⟩ := bind_eq_ok h
    exact finish_gives fs (readEntries_given fs.given_unmet read) h
  · obtain ⟨r, -, h⟩ := bind_eq_ok h
    exact readItems_gives fs h
  · cases h

theorem record_gives {β : Type} {fs : Fields αs} {parts : β → Values αs} {make : Values αs → β}
    {r : Reading} {s : Source} {b : β} (h : (fs.record parts make).decode r s = .ok b) :
    ∃ values, fs.Gives values ∧ make values = b := by
  obtain ⟨values, read, made⟩ := map_eq_ok h
  exact ⟨values, decode_gives read, made⟩

end Fields

/-- The items of a list that has been read have been read. -/
theorem Codec.mem_of_decode_list {c : Codec α} {r : Reading} {s : Source} {l : List α}
    (h : c.list.decode r s = .ok l) : ∀ a ∈ l, ∃ r s, c.decode r s = .ok a := by
  unfold Codec.list at h
  dsimp only at h
  split at h
  · obtain ⟨r, -, h⟩ := bind_eq_ok h
    obtain ⟨values, read, h⟩ := bind_eq_ok h
    obtain ⟨-, -, h⟩ := bind_eq_ok h
    obtain rfl := Except.ok.inj h
    intro a ha
    obtain ⟨s, -, read⟩ := (mem_mapM_ok read).1 ha
    exact ⟨r, s, read⟩
  · cases h

end Json

/-- An address that has been read has a host. -/
theorem Address.host_ne_of_parse {text : String} {a : Address} (h : parse text = .ok a) :
    a.host ≠ "" := by
  unfold parse at h
  split at h
  · cases h
  · cases h
  · next host port ne _ =>
    split at h
    · obtain rfl := Except.ok.inj h
      rw [← String.toList_inj.ne, String.toList_ofList]
      exact ne
    · cases h

theorem Address.host_ne_of_decode {r : Reading} {s : Source} {a : Address}
    (h : Address.codec.decode r s = .ok a) : a.host ≠ "" := by
  obtain ⟨text, -, h⟩ := bind_eq_ok h
  dsimp only at h
  cases read : parse text with
  | error e =>
    rw [read] at h
    cases h
  | ok b =>
    rw [read] at h
    exact Except.ok.inj h ▸ host_ne_of_parse read

/-- The listeners of an identity that has been read have hosts. -/
theorem NodeIdentity.portable_of_decode {r : Reading} {s : Source} {n : NodeIdentity}
    (h : NodeIdentity.codec.decode r s = .ok n) : n.Portable := by
  obtain ⟨⟨id, listeners, _⟩, ⟨-, listed, -⟩, rfl⟩ := Fields.record_gives h
  obtain ⟨r, s, listed⟩ := listed.of_required
  intro a ha
  obtain ⟨r, s, read⟩ := Codec.mem_of_decode_list listed a ha
  exact Address.host_ne_of_decode read

/-- **The listeners of a node whose configuration has been read have hosts.** -/
theorem Config.portable_of_parse {text : String} {c : Config} (h : parse text = .ok c) :
    c.identity.Portable := by
  obtain ⟨r, s, read⟩ : ∃ r s, Config.codec.decode r s = .ok c := by
    unfold parse at h
    split at h
    · next read =>
      split at h
      · obtain rfl := Except.ok.inj h
        obtain ⟨t, -, read⟩ := Option.map_eq_some_iff.1 read
        exact ⟨_, _, read⟩
      · cases h
    · cases h
  obtain ⟨⟨_, _, _, _, identity, _⟩, ⟨-, -, -, -, given, -⟩, rfl⟩ := Fields.record_gives read
  obtain ⟨r, s, read⟩ := given.of_required
  exact NodeIdentity.portable_of_decode read

end WorkerCluster
