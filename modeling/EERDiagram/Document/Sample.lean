/-! The example document, and the names that documents go by. -/
namespace EERDiagram.Document

def suffix : String := ".eer"

/-- It has every kind of statement that diagrams commonly need, with all positions given. -/
def sample : String := String.intercalate "\n" [
  "// Example with persistent coordinates",
  "// Drag the nodes and watch the (x, y) numbers change",
  "",
  "// Entities",
  "ent EMPLOYEE (400, 300)",
  "ent DEPARTMENT (700, 300)",
  "ent PROJECT (700, 500)",
  "weak_ent DEPENDENT (100, 300)",
  "",
  "// Employee attributes",
  "key_att Ssn -> EMPLOYEE (350, 220)",
  "att Name -> EMPLOYEE (450, 220)",
  "derived_att Age -> EMPLOYEE (400, 180)",
  "",
  "// Relationships",
  "rel WORKS_FOR (550, 300)",
  "link EMPLOYEE WORKS_FOR \"N\"",
  "link DEPARTMENT WORKS_FOR \"1\"",
  "",
  "rel CONTROLS (700, 400)",
  "link DEPARTMENT CONTROLS \"1\"",
  "link PROJECT CONTROLS \"N\"",
  "",
  "// Weak entity and identifying relationship",
  "ident_rel HAS_DEPENDENT (250, 300)",
  "link EMPLOYEE HAS_DEPENDENT \"1\"",
  "link DEPENDENT HAS_DEPENDENT \"N\" [total]",
  "",
  "// Specialization hierarchy",
  "spec d -> EMPLOYEE (400, 420)",
  "ent SECRETARY (280, 550)",
  "ent ENGINEER (400, 550)",
  "ent TECHNICIAN (520, 550)",
  "",
  "link d SECRETARY",
  "link d ENGINEER",
  "link d TECHNICIAN",
  "",
  "// Union / category",
  "// For categories, declare the superclasses first",
  "ent PERSON (100, 650)",
  "ent BANK (300, 650)",
  "ent COMPANY (500, 650)",
  "",
  "union u (300, 750)",
  "link PERSON u",
  "link BANK u",
  "link COMPANY u",
  "",
  "ent OWNER (300, 850)",
  "link u OWNER [total]",
  ""]

end EERDiagram.Document
