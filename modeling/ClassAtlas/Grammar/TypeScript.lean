import ClassAtlas.Grammar.Basic

namespace ClassAtlas.Grammar

-- The names of TypeScript, with or without markup.
def typescript : Grammar where
  kinds := [
    "abstract_class_declaration", "abstract_method_signature", "accessibility_modifier",
    "adding_type_annotation", "ambient_declaration", "arguments", "array", "array_pattern",
    "array_type", "arrow_function", "as_expression", "asserts", "asserts_annotation",
    "assignment_expression", "assignment_pattern", "augmented_assignment_expression",
    "await_expression", "binary_expression", "break_statement", "call_expression",
    "call_signature", "catch_clause", "class", "class_body", "class_declaration",
    "class_heritage", "class_static_block", "comment", "computed_property_name",
    "conditional_type", "constraint", "construct_signature", "constructor_type",
    "continue_statement", "debugger_statement", "decorator", "default_type", "do_statement",
    "else_clause", "empty_statement", "enum_assignment", "enum_body", "enum_declaration",
    "escape_sequence", "existential_type", "export_clause", "export_specifier",
    "export_statement", "expression_statement", "extends_clause", "extends_type_clause", "false",
    "finally_clause", "flow_maybe_type", "for_in_statement", "for_statement",
    "formal_parameters", "function_declaration", "function_expression", "function_signature",
    "function_type", "generator_function", "generator_function_declaration", "generic_type",
    "hash_bang_line", "html_character_reference", "html_comment", "identifier", "if_statement",
    "implements_clause", "import", "import_alias", "import_attribute", "import_clause",
    "import_require_clause", "import_specifier", "import_statement", "index_signature",
    "index_type_query", "infer_type", "instantiation_expression", "interface_body",
    "interface_declaration", "internal_module", "intersection_type", "jsx_attribute",
    "jsx_closing_element", "jsx_element", "jsx_expression", "jsx_namespace_name",
    "jsx_opening_element", "jsx_self_closing_element", "jsx_text", "labeled_statement",
    "lexical_declaration", "literal_type", "lookup_type", "mapped_type_clause",
    "member_expression", "meta_property", "method_definition", "method_signature", "module",
    "named_imports", "namespace_export", "namespace_import", "nested_identifier",
    "nested_type_identifier", "new_expression", "non_null_expression", "null", "number",
    "object", "object_assignment_pattern", "object_pattern", "object_type",
    "omitting_type_annotation", "opting_type_annotation", "optional_chain", "optional_parameter",
    "optional_type", "override_modifier", "pair", "pair_pattern", "parenthesized_expression",
    "parenthesized_type", "predefined_type", "private_property_identifier", "program",
    "property_identifier", "property_signature", "public_field_definition", "readonly_type",
    "regex", "regex_flags", "regex_pattern", "required_parameter", "rest_pattern", "rest_type",
    "return_statement", "satisfies_expression", "sequence_expression",
    "shorthand_property_identifier", "shorthand_property_identifier_pattern", "spread_element",
    "statement_block", "statement_identifier", "string", "string_fragment",
    "subscript_expression", "super", "switch_body", "switch_case", "switch_default",
    "switch_statement", "template_literal_type", "template_string", "template_substitution",
    "template_type", "ternary_expression", "this", "this_type", "throw_statement", "true",
    "try_statement", "tuple_type", "type_alias_declaration", "type_annotation", "type_arguments",
    "type_assertion", "type_identifier", "type_parameter", "type_parameters", "type_predicate",
    "type_predicate_annotation", "type_query", "unary_expression", "undefined", "union_type",
    "update_expression", "variable_declaration", "variable_declarator", "while_statement",
    "with_statement", "yield_expression"]
  fields := [
    "alias", "alternative", "argument", "arguments", "attribute", "body", "close_tag",
    "condition", "consequence", "constraint", "constructor", "declaration", "decorator",
    "finalizer", "flags", "function", "handler", "increment", "index", "index_type",
    "initializer", "key", "kind", "label", "left", "member", "module", "name", "object",
    "open_tag", "operator", "optional_chain", "parameter", "parameters", "pattern", "property",
    "return_type", "right", "sign", "source", "template", "type", "type_arguments",
    "type_parameters", "value"]

end ClassAtlas.Grammar
