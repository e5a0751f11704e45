import Cross233.Library.JsonText
import Cross233.Protocol.Serde

namespace Cross233.Protocol

open Json

-- The bytes of the member `,"remotePort":N`, which port zero does without.
def portWidth (port : UInt16) : Nat :=
  if port = 0 then 0 else (Nat.toDigits 10 port.toNat).length + 14

namespace Service

theorem format_oneLine : record.format.OneLine := by
  refine Record.format_oneLine ?_
  simp [record, text_oneLine, boolean_oneLine, u16, u32, u64, unsigned_oneLine,
    option_oneLine text_oneLine, option_oneLine boolean_oneLine, list_oneLine text_oneLine,
    stringMap_oneLine]

theorem width_port (svc : Service) (port : UInt16) :
    (record.format.write { svc with remotePort := port }).width + portWidth svc.remotePort =
      (record.format.write svc).width + portWidth port := by
  have hnamed (svc : Service) : Record.members record.columns svc ≠ [] :=
    List.ne_nil_of_mem (List.mem_filterMap.mpr ⟨_, List.mem_cons_self, rfl⟩)
  have hport (svc : Service) (set : UInt16 → Service → Service) :
      (Column.mk (skipZeroU16 ("remotePort", ["remote_port"])) remotePort set).width svc =
        portWidth svc.remotePort := by
    unfold Column.width Column.member StructField.member portWidth
    by_cases hzero : svc.remotePort = 0
    · simp [hzero, skipZeroU16, isZeroU16]
    · have hname : Text.byteLength (quoted "remotePort") = 12 := by decide
      simp [hzero, skipZeroU16, isZeroU16, memberWidth, u16, unsigned, width_num, hname]
      omega
  rw [Record.width_write (hnamed _), Record.width_write (hnamed _)]
  simp only [record, List.map_cons, List.map_nil, List.sum_cons, List.sum_nil, hport]
  simp only [Column.width, Column.member]
  omega

end Service

theorem base64Bytes_oneLine (standard : Base64) : (base64Bytes standard).OneLine := by
  intro data
  cases data with
  | none => exact option_oneLine text_oneLine none
  | some bytes => exact text_oneLine (standard.encode bytes)

namespace Message

variable (standard : Base64)

theorem format_oneLine : (record standard).format.OneLine := by
  refine Record.format_oneLine ?_
  simp [record, text_oneLine, u16, option_oneLine text_oneLine,
    option_oneLine boolean_oneLine, option_oneLine (unsigned_oneLine _ _ _),
    option_oneLine Service.format_oneLine, list_oneLine Service.format_oneLine,
    base64Bytes_oneLine]

def servicesMember (services : List Service) : List (String × Json) :=
  if services = [] then [] else [("services", (list Service.record.format).write services)]

def servicesWidth (services : List Service) : Nat :=
  ((servicesMember services).map memberWidth).sum

theorem width_newReady (services : List Service) (p q : UInt16) :
    ((record standard).format.write (.newReady services p q)).width =
      servicesWidth services + (Nat.toDigits 10 p.toNat).length +
        (Nat.toDigits 10 q.toNat).length + 44 := by
  have hmembers : (record standard).format.write (.newReady services p q) =
      .obj ([("type", .str "ready"), ("qcpPort", .num p.toNat), ("qcpTunnelPort", .num q.toNat)] ++
        servicesMember services) := by
    cases services <;> rfl
  have htype : memberWidth ("type", .str "ready") = 15 := by decide
  have hp : Text.byteLength (quoted "qcpPort") = 9 := by decide
  have hq : Text.byteLength (quoted "qcpTunnelPort") = 15 := by decide
  rw [hmembers, width_obj (by simp), List.map_append, List.sum_append, ← servicesWidth]
  simp only [List.map_cons, List.map_nil, List.sum_cons, List.sum_nil, htype]
  simp only [memberWidth, width_num, hp, hq]
  omega

theorem width_newClientHello (clientId : String) (services : List Service) :
    ((record standard).format.write (.newClientHello clientId services)).width =
      servicesWidth services + Text.byteLength (escapedText clientId) + 32 := by
  have hmembers : (record standard).format.write (.newClientHello clientId services) =
      .obj ([("type", .str "client"), ("client_id", .str clientId)] ++
        servicesMember services) := by
    cases services <;> rfl
  have htype : memberWidth ("type", .str "client") = 16 := by decide
  have hid : Text.byteLength (quoted "client_id") = 11 := by decide
  rw [hmembers, width_obj (by simp), List.map_append, List.sum_append, ← servicesWidth]
  simp only [List.map_cons, List.map_nil, List.sum_cons, List.sum_nil, htype]
  simp only [memberWidth, width_str, hid]
  omega

-- Services that are written longer by so many bytes each.
theorem servicesWidth_of_gain {α : Type} (sent announced : α → Service) (gain : α → Nat)
    {answers : List α}
    (h : ∀ a ∈ answers, (Service.record.format.write (announced a)).width =
      (Service.record.format.write (sent a)).width + gain a) :
    servicesWidth (answers.map announced) =
      servicesWidth (answers.map sent) + (answers.map gain).sum := by
  have hsum : ((answers.map announced).map
        (fun svc => (Service.record.format.write svc).width + 1)).sum =
      ((answers.map sent).map (fun svc => (Service.record.format.write svc).width + 1)).sum +
        (answers.map gain).sum := by
    induction answers with
    | nil => rfl
    | cons a answers ih =>
      rw [List.forall_mem_cons] at h
      have hrest := ih h.2
      simp only [List.map_cons, List.sum_cons, h.1] at hrest ⊢
      omega
  cases answers with
  | nil => rfl
  | cons a answers =>
    have hwidth (services : List Service) (hne : services ≠ []) : servicesWidth services =
        Text.byteLength (quoted "services") + 3 +
          (services.map (fun svc => (Service.record.format.write svc).width + 1)).sum := by
      have harr : ((list Service.record.format).write services).width =
          1 + (services.map (fun svc => (Service.record.format.write svc).width + 1)).sum := by
        refine (width_arr (by simpa using hne)).trans ?_
        rw [List.map_map]
        rfl
      simp only [servicesWidth, servicesMember, if_neg hne, List.map_cons, List.map_nil,
        List.sum_cons, List.sum_nil, memberWidth, harr]
      omega
    rw [hwidth _ (by simp), hwidth _ (by simp), hsum]
    omega

end Message

end Cross233.Protocol
