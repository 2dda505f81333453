import ScriptFrontend.Text.Escaped

set_option autoImplicit false

namespace ScriptFrontend

inductive FeatureKind where
  | letBinding
  | func
  | memLayout
deriving DecidableEq

namespace FeatureKind

def all : List FeatureKind :=
  [letBinding, func, memLayout]

def name : FeatureKind → String
  | letBinding => "let"
  | func => "func"
  | memLayout => "mem_layout"

def label : FeatureKind → String
  | letBinding => "Let"
  | func => "Func"
  | memLayout => "MemLayout"

def ofName? (s : String) : Option FeatureKind :=
  all.find? fun k => k.name == s

end FeatureKind

mutual

inductive Ty where
  | mk (name : String) (features : List Feature)

inductive Feature where
  | mk (kind : FeatureKind) (name : String) (args : List Ty) (ret : Ty)

end

mutual

def Ty.decEq : (a b : Ty) → Decidable (a = b)
  | .mk n fs, .mk m gs =>
    if h : n = m then
      match Feature.decEqAll fs gs with
      | isTrue hs => isTrue (by rw [h, hs])
      | isFalse hs => isFalse fun e => hs (Ty.mk.inj e).2
    else isFalse fun e => h (Ty.mk.inj e).1

def Ty.decEqAll : (as bs : List Ty) → Decidable (as = bs)
  | [], [] => isTrue rfl
  | [], _ :: _ => isFalse nofun
  | _ :: _, [] => isFalse nofun
  | a :: as, b :: bs =>
    match Ty.decEq a b with
    | isTrue h =>
      match Ty.decEqAll as bs with
      | isTrue hs => isTrue (by rw [h, hs])
      | isFalse hs => isFalse fun e => hs (List.cons.inj e).2
    | isFalse h => isFalse fun e => h (List.cons.inj e).1

def Feature.decEq : (f g : Feature) → Decidable (f = g)
  | .mk k n as r, .mk l m bs s =>
    if h : k = l ∧ n = m then
      match Ty.decEqAll as bs with
      | isTrue hs =>
        match Ty.decEq r s with
        | isTrue hr => isTrue (by rw [h.1, h.2, hs, hr])
        | isFalse hr => isFalse fun e => hr (Feature.mk.inj e).2.2.2
      | isFalse hs => isFalse fun e => hs (Feature.mk.inj e).2.2.1
    else isFalse fun e => h ⟨(Feature.mk.inj e).1, (Feature.mk.inj e).2.1⟩

def Feature.decEqAll : (fs gs : List Feature) → Decidable (fs = gs)
  | [], [] => isTrue rfl
  | [], _ :: _ => isFalse nofun
  | _ :: _, [] => isFalse nofun
  | f :: fs, g :: gs =>
    match Feature.decEq f g with
    | isTrue h =>
      match Feature.decEqAll fs gs with
      | isTrue hs => isTrue (by rw [h, hs])
      | isFalse hs => isFalse fun e => hs (List.cons.inj e).2
    | isFalse h => isFalse fun e => h (List.cons.inj e).1

end

instance : DecidableEq Ty := Ty.decEq

instance : DecidableEq Feature := Feature.decEq

namespace Ty

def name : Ty → String
  | mk name _ => name

def features : Ty → List Feature
  | mk _ features => features

def named (name : String) : Ty :=
  mk name []

def unknown : Ty :=
  named ""

def isValid (t : Ty) : Bool :=
  !t.name.isEmpty

def withFeature (t : Ty) (f : Feature) : Ty :=
  mk t.name (t.features ++ [f])

end Ty

namespace Feature

def kind : Feature → FeatureKind
  | mk kind _ _ _ => kind

def name : Feature → String
  | mk _ name _ _ => name

def args : Feature → List Ty
  | mk _ _ args _ => args

def ret : Feature → Ty
  | mk _ _ _ ret => ret

end Feature

mutual

def Ty.render : Ty → String
  | .mk name features =>
    if name.isEmpty then "<unknown>"
    else if features.isEmpty then name
    else name ++ " \x7b " ++ "; ".intercalate (Feature.renderAll features) ++ " \x7d"

def Ty.renderAll : List Ty → List String
  | [] => []
  | t :: ts => Ty.render t :: Ty.renderAll ts

/-- Only functions show their arguments. -/
def Feature.render : Feature → String
  | .mk .func name args ret =>
    "func " ++ name ++ "(" ++ ", ".intercalate (Ty.renderAll args) ++ ") " ++ Ty.render ret
  | .mk kind name _ ret => kind.name ++ " " ++ name ++ " " ++ Ty.render ret

def Feature.renderAll : List Feature → List String
  | [] => []
  | f :: fs => Feature.render f :: Feature.renderAll fs

end

mutual

def Ty.inspect : Ty → String
  | .mk name features =>
    "Type \x7b name: " ++ Text.quoted name ++
      ", features: [" ++ ", ".intercalate (Feature.inspectAll features) ++ "] \x7d"

def Ty.inspectAll : List Ty → List String
  | [] => []
  | t :: ts => Ty.inspect t :: Ty.inspectAll ts

def Feature.inspect : Feature → String
  | .mk kind name args ret =>
    "Feature \x7b kind: " ++ kind.label ++ ", name: " ++ Text.quoted name ++
      ", args: [" ++ ", ".intercalate (Ty.inspectAll args) ++ "], ret: " ++ Ty.inspect ret ++
      " \x7d"

def Feature.inspectAll : List Feature → List String
  | [] => []
  | f :: fs => Feature.inspect f :: Feature.inspectAll fs

end

end ScriptFrontend
