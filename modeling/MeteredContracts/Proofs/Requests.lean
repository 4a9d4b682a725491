import Mathlib.Logic.Relation
import MeteredContracts.Proofs.FrameRules
import MeteredContracts.Proofs.Loading
import MeteredContracts.Proofs.Tables

namespace MeteredContracts

namespace Ledger

def serveAll (l : Ledger) (rs : List Request) : Ledger := rs.foldl (fun l r => (l.serve r).2) l

def ServesFor (A : Address → Prop) (l l' : Ledger) : Prop :=
  ∃ rs : List Request, (∀ r ∈ rs, ∃ a, A a ∧ r.MadeBy a) ∧ l.serveAll rs = l'

variable {A : Address → Prop}

theorem ServesFor.refl (l : Ledger) : ServesFor A l l := ⟨[], nofun, rfl⟩

theorem ServesFor.trans {l l' l'' : Ledger} (h : ServesFor A l l') (h' : ServesFor A l' l'') :
    ServesFor A l l'' := by
  obtain ⟨rs, hrs, rfl⟩ := h
  obtain ⟨rs', hrs', rfl⟩ := h'
  refine ⟨rs ++ rs', fun r hr => ?_, List.foldl_append⟩
  exact (List.mem_append.mp hr).elim (hrs r) (hrs' r)

theorem servesFor_serve {a : Address} {r : Request} (ha : A a) (hr : r.MadeBy a) (l : Ledger) :
    ServesFor A l (l.serve r).2 :=
  ⟨[r], fun _ h => List.mem_singleton.mp h ▸ ⟨a, ha, hr⟩, rfl⟩

end Ledger

theorem Service.servesFor_ask {A : Address → Prop} {a : Address} {r : Request} (ha : A a)
    (hr : r.MadeBy a) (s : Service) : s.ledger.ServesFor A (s.ask r).2.ledger := by
  unfold ask
  split
  · exact .refl s.ledger
  · exact Ledger.servesFor_serve ha hr s.ledger

theorem Registry.mem_of_lookup {r : Registry} {id : Nat} {call : Call}
    (h : lookup r id = .ok call) : (id, call) ∈ r.entries := by
  unfold lookup at h
  split at h
  next hr =>
    cases h
    exact Table.mem_of_get? r hr
  next => cases h

namespace World

def ActsFor (A : Address → Prop) (w : World) : Prop := ∀ e ∈ w.registry.entries, A e.2.contract

def Requests (A : Address → Prop) (u v : World) : Prop :=
  u.ActsFor A → v.ActsFor A ∧ u.service.ledger.ServesFor A v.service.ledger

variable {A : Address → Prop}

theorem Requests.of_eq {u v : World} (hr : v.registry = u.registry) (hs : v.service = u.service) :
    u.Requests A v := by
  intro hu
  unfold ActsFor at hu ⊢
  rw [hr, hs]
  exact ⟨hu, .refl _⟩

theorem ActsFor.register {w : World} (hw : w.ActsFor A) {call : Call} (hc : A call.contract)
    (id : Nat) : ActsFor A { w with registry := Registry.register w.registry id call } := by
  intro e he
  obtain rfl | he := Table.mem_insert he
  · exact hc
  · exact hw e he

theorem requests_allows (A : Address → Prop) :
    AllowsCalls (fun call => A call.contract) (Requests A) where
  refl _ := .of_eq rfl rfl
  trans huv hvw hu := ⟨(hvw (huv hu).1).1, (huv hu).2.trans (hvw (huv hu).1).2⟩
  note _ _ := .of_eq rfl rfl
  clock _ _ := .of_eq rfl rfl
  ask w _ _ _ hl hr hw :=
    ⟨hw, w.service.servesFor_ask (hw _ (Registry.mem_of_lookup hl)) hr⟩
  name _ := .of_eq rfl rfl
  serve hc huv hvw hu :=
    ⟨fun e he => (hvw ((huv hu).1.register hc _)).1 e (Table.mem_erase he),
      (huv hu).2.trans (hvw ((huv hu).1.register hc _)).2⟩

end World

namespace Frame

variable {p : Platform} {root : Frame}

def Executes (p : Platform) (root : Frame) (a : Address) : Prop :=
  ∃ fr ss, Relation.ReflTransGen (Nests p) root fr ∧ fr.session? p = some ss ∧
    fr.call.contract = a

theorem run_servesFor {A : Address → Prop} (hw : root.world.ActsFor A)
    (hA : ∀ a, root.Executes p a → A a) :
    root.world.service.ledger.ServesFor A (p.run root).2.service.ledger := by
  refine ((World.requests_allows A).run_where (P := Relation.ReflTransGen (Nests p) root)
    (fun ht hn => ht.tail hn) (fun ht hs => hA _ ⟨_, _, ht, hs, rfl⟩) (fun fr _ => ?_) root .refl
    hw).2
  obtain ⟨cache, journal, he⟩ := fr.loads_loaded p
  rw [he]
  exact .of_eq rfl rfl

end Frame

end MeteredContracts
