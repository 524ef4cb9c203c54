/-!
Keys of the terms that carry a meaning of their own. A sub-kind such as the web address or the
integer is recognised by the key of the node that introduces it.
-/

namespace TermRules.Vocabulary

/-- The root of the taxonomy; it belongs to no chain. -/
def root : String := ":type"

def any : String := ":type:data:any"
def boolean : String := ":type:data:bool"
def text : String := ":type:data:text"
def numeric : String := ":type:data:numeric"
def list : String := ":type:data:list"
def struct : String := ":type:data:struct"
def object : String := ":type:data:object"

def string : String := ":type:value:str"
def key : String := ":type:value:key"
def url : String := ":type:value:url"
def hex : String := ":type:value:hex"
def email : String := ":type:value:email"

def reference : String := ":type:value:ref"
def referenceId : String := ":type:value:ref:id"
def referenceKey : String := ":type:value:ref:key"
def referenceGid : String := ":type:value:ref:gid"
def enumeration : String := ":type:value:enum"

def integer : String := ":type:value:int"
def timestamp : String := ":type:value:stamp"

def set : String := ":type:value:set"

def referenceKeys : List String :=
  [reference, referenceId, referenceKey, referenceGid, enumeration]

def isReference (key : String) : Bool :=
  referenceKeys.contains key

/-- What stands in front of the local name in the key of a hook term. -/
def hook (localName : String) : String :=
  ":rule:" ++ localName

end TermRules.Vocabulary
